import Mathlib.Data.List.TakeWhile

/-!
# Deletions that sweep the oldest names

Names are put in one after the other, and lists of names that are to be deleted are worked off from
the newest to the oldest. Such a list may be outdated, but it misses nothing that is older than its
first name: so whoever deletes a name has all the older ones on its list as well.

Names are listed from the newest on, here as everywhere.

* `place` counts the names from one on back, so that older names come at smaller places.
* `Thorough` says that a list of names to be deleted misses nothing behind its first name, apart from
  one name that is spared.
* `Covers` says that such a list will get as far as a name: all up to there is still stored.
  `Thorough.covers_of_delete` hands a name over to whoever has deleted another one before it.
-/

namespace Keyring

/-! ## Places -/

/-- The number of names from this one on back. -/
def place (names : List String) (name : String) : Nat :=
  (names.dropWhile fun other => other != name).length

section Place

variable {names : List String} {a b name : String}

theorem place_le (names : List String) (name : String) : place names name ≤ names.length :=
  List.length_dropWhile_le _ _

theorem place_cons_self (names : List String) (name : String) :
    place (name :: names) name = names.length + 1 := by
  simp [place]

theorem place_cons_of_ne (other : a ≠ name) (names : List String) :
    place (a :: names) name = place names name := by
  simp [place, other]

theorem place_cons_of_mem {new : String} (fresh : new ∉ names) (mem : name ∈ names) :
    place (new :: names) name = place names name := by
  refine place_cons_of_ne ?_ names
  rintro rfl
  exact fresh mem

theorem eq_of_place_eq (mem : a ∈ names) (same : place names a = place names b) : a = b := by
  induction names with
  | nil => cases mem
  | cons c names ih =>
    have ha := place_le names a
    have hb := place_le names b
    by_cases first : c = a
    · by_cases second : c = b
      · exact first.symm.trans second
      · rw [← first, place_cons_self, place_cons_of_ne second] at same
        omega
    · have mem : a ∈ names := (List.mem_cons.mp mem).resolve_left (Ne.symm first)
      by_cases second : c = b
      · rw [← second, place_cons_self, place_cons_of_ne first] at same
        omega
      · rw [place_cons_of_ne first, place_cons_of_ne second] at same
        exact ih mem same

/-- Distinct names come at smaller and smaller places. -/
theorem pairwise_place (distinct : names.Nodup) :
    names.Pairwise fun a b => place names b < place names a := by
  induction names with
  | nil => exact .nil
  | cons c names ih =>
    obtain ⟨new, distinct⟩ := List.nodup_cons.mp distinct
    have other {a : String} (ha : a ∈ names) : place (c :: names) a = place names a :=
      place_cons_of_mem new ha
    refine List.pairwise_cons.mpr ⟨?_, (ih distinct).imp_of_mem ?_⟩
    · intro a ha
      rw [place_cons_self, other ha]
      exact Nat.lt_succ_of_le (place_le names a)
    · intro a b ha hb lt
      rw [other ha, other hb]
      exact lt

end Place

/-! ## Thorough lists -/

/-- The names `doomed` are to be deleted one after the other, and of the names that are stored none
behind the first one is missed but the name that is spared. -/
structure Thorough (names stored : List String) (spared : Option String) (doomed : List String) :
    Prop where
  subset : ∀ name ∈ doomed, name ∈ names
  sorted : doomed.Pairwise fun a b => place names b < place names a
  complete : ∀ first ∈ doomed.head?, ∀ name ∈ stored, place names name ≤ place names first →
    name ∈ doomed ∨ spared = some name

variable {names stored stored' doomed passed rest : List String} {spared : Option String}
  {name new stale : String}

namespace Thorough

theorem nil (names stored : List String) (spared : Option String) :
    Thorough names stored spared [] where
  subset _ h := absurd h List.not_mem_nil
  sorted := .nil
  complete _ h := absurd h (by simp)

/-- What is stored past a bound makes a thorough list. -/
theorem drop (distinct : names.Nodup) (sublist : stored.Sublist names) (spared : Option String)
    (bound : Nat) : Thorough names stored spared (stored.drop bound) where
  subset name h := sublist.subset (List.mem_of_mem_drop h)
  sorted := ((pairwise_place distinct).sublist sublist).sublist (List.drop_sublist _ _)
  complete first h name mem le := by
    have sorted := (pairwise_place distinct).sublist sublist
    rw [← List.take_append_drop bound stored, List.pairwise_append] at sorted
    rw [← List.take_append_drop bound stored] at mem
    rcases List.mem_append.mp mem with before | behind
    · have lt := sorted.2.2 name before first (List.mem_of_head? h)
      omega
    · exact Or.inl behind

theorem of_subset (thorough : Thorough names stored spared doomed)
    (fewer : ∀ name ∈ stored', name ∈ stored) : Thorough names stored' spared doomed where
  subset := thorough.subset
  sorted := thorough.sorted
  complete first h name mem := thorough.complete first h name (fewer name mem)

/-- A new name comes before all that is listed. -/
theorem cons (thorough : Thorough names stored spared doomed) (fresh : new ∉ names)
    (known : ∀ name ∈ stored, name ∈ names) :
    Thorough (new :: names) (new :: stored) spared doomed := by
  have other {name : String} (mem : name ∈ names) : place (new :: names) name = place names name :=
    place_cons_of_mem fresh mem
  refine ⟨?_, ?_, ?_⟩
  · exact fun name mem => List.mem_cons_of_mem _ (thorough.subset name mem)
  · refine thorough.sorted.imp_of_mem fun ha hb lt => ?_
    rw [other (thorough.subset _ ha), other (thorough.subset _ hb)]
    exact lt
  · intro first h name mem le
    have listed := thorough.subset first (List.mem_of_head? h)
    rw [other listed] at le
    rcases List.mem_cons.mp mem with rfl | mem
    · have bounded := place_le names first
      rw [place_cons_self] at le
      omega
    · rw [other (known name mem)] at le
      exact thorough.complete first h name mem le

/-- A list that passes over the spared name stays thorough. -/
theorem of_append (thorough : Thorough names stored spared (passed ++ rest))
    (own : ∀ name ∈ passed, spared = some name) : Thorough names stored spared rest := by
  obtain ⟨-, sorted, before⟩ := List.pairwise_append.mp thorough.sorted
  refine ⟨fun name mem => thorough.subset name (List.mem_append_right _ mem), sorted, ?_⟩
  intro first h name mem le
  have started : ∃ start ∈ (passed ++ rest).head?, place names first ≤ place names start := by
    cases passed with
    | nil => exact ⟨first, h, Nat.le_refl _⟩
    | cons a passed =>
      exact ⟨a, rfl, Nat.le_of_lt (before a List.mem_cons_self first (List.mem_of_head? h))⟩
  obtain ⟨start, hstart, later⟩ := started
  rcases thorough.complete start hstart name mem (le.trans later) with listed | own'
  · exact (List.mem_append.mp listed).symm.imp_right (own name)
  · exact Or.inr own'

/-- What is listed behind a name that is deleted is thorough as well. -/
theorem of_delete (thorough : Thorough names stored spared (stale :: rest))
    (gone : ∀ name, name ∈ stored' ↔ name ∈ stored ∧ name ≠ stale) :
    Thorough names stored' spared rest := by
  obtain ⟨before, sorted⟩ := List.pairwise_cons.mp thorough.sorted
  refine ⟨fun name mem => thorough.subset name (List.mem_cons_of_mem _ mem), sorted, ?_⟩
  intro first h name mem le
  obtain ⟨mem, other⟩ := (gone name).mp mem
  have lt := before first (List.mem_of_head? h)
  rcases thorough.complete stale rfl name mem (by omega) with listed | own
  · exact Or.inl ((List.mem_cons.mp listed).resolve_left other)
  · exact Or.inr own

end Thorough

/-! ## Lists that get as far as a name -/

/-- A list of names to be deleted holds a name, and all up to there is still stored. -/
structure Covers (names stored doomed : List String) (name : String) : Prop where
  mem : name ∈ doomed
  intact : ∀ first ∈ doomed.head?, ∀ other ∈ names, place names name ≤ place names other →
    place names other ≤ place names first → other ∈ stored

namespace Covers

theorem cons (covers : Covers names stored doomed name)
    (thorough : Thorough names stored spared doomed) (fresh : new ∉ names) :
    Covers (new :: names) (new :: stored) doomed name := by
  have other {name : String} (mem : name ∈ names) : place (new :: names) name = place names name :=
    place_cons_of_mem fresh mem
  refine ⟨covers.mem, ?_⟩
  intro first h between mem above below
  rcases List.mem_cons.mp mem with rfl | mem
  · exact List.mem_cons_self
  · rw [other (thorough.subset name covers.mem), other mem] at above
    rw [other (thorough.subset first (List.mem_of_head? h)), other mem] at below
    exact List.mem_cons_of_mem _ (covers.intact first h between mem above below)

/-- The first name of a list that gets somewhere is still stored. -/
theorem first_mem (covers : Covers names stored doomed name)
    (thorough : Thorough names stored spared doomed) {first : String} (h : first ∈ doomed.head?) :
    first ∈ stored ∧ place names name ≤ place names first := by
  have le : place names name ≤ place names first := by
    cases doomed with
    | nil => cases h
    | cons a doomed =>
      cases h
      rcases List.mem_cons.mp covers.mem with rfl | behind
      · exact Nat.le_refl _
      · exact Nat.le_of_lt ((List.pairwise_cons.mp thorough.sorted).1 name behind)
  have listed := thorough.subset first (List.mem_of_head? h)
  exact ⟨covers.intact first h first listed le (Nat.le_refl _), le⟩

/-- A deletion elsewhere does not stop a list. -/
theorem of_delete (covers : Covers names stored doomed name)
    (gone : ∀ other, other ∈ stored' ↔ other ∈ stored ∧ other ≠ stale)
    (outside : ∀ first ∈ doomed.head?, place names name ≤ place names stale →
      ¬ place names stale ≤ place names first) :
    Covers names stored' doomed name := by
  refine ⟨covers.mem, ?_⟩
  intro first h other mem above below
  refine (gone other).mpr ⟨covers.intact first h other mem above below, ?_⟩
  rintro rfl
  exact outside first h above below

end Covers

/-- Whoever deletes a name gets as far as any older name, if all between them is stored. -/
theorem Thorough.covers_of_delete
    (thorough : Thorough names stored spared (stale :: (passed ++ rest)))
    (own : ∀ other ∈ passed, spared = some other)
    (gone : ∀ other, other ∈ stored' ↔ other ∈ stored ∧ other ≠ stale) (mem : name ∈ stored')
    (foreign : spared ≠ some name) (older : place names name ≤ place names stale)
    (intact : ∀ other ∈ names, place names name ≤ place names other →
      place names other ≤ place names stale → other ∈ stored) :
    Covers names stored' rest name := by
  obtain ⟨stored_name, other⟩ := (gone name).mp mem
  have listed : name ∈ stale :: (passed ++ rest) :=
    (thorough.complete stale rfl name stored_name older).resolve_right foreign
  have behind : name ∈ rest := by
    have later := (List.mem_cons.mp listed).resolve_left other
    exact (List.mem_append.mp later).resolve_left fun passed => foreign (own name passed)
  refine ⟨behind, ?_⟩
  intro first h between known above below
  have before := (List.pairwise_cons.mp thorough.sorted).1 first
    (List.mem_append_right _ (List.mem_of_head? h))
  refine (gone between).mpr ⟨intact between known above (by omega), ?_⟩
  rintro rfl
  omega

end Keyring
