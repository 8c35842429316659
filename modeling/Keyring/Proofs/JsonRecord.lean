import Mathlib.Data.List.Nodup
import Keyring.Proofs.JsonWriting

/-!
# Reading records

A record is read field by field, in whatever order its entries come. Which entries a reader takes, and
what it comes to, follows from what its fields do; here this is said once for all records.

* `Slot` is a field that holds a value, and `Shape.MadeOf` a shape of such fields that keep apart.
* `Fill` relates two states of a record by the entries that lead from one to the other.
* `entries_of_fill` and `fill_of_entries`: the entries of an object that are read are those that fill
  the record. `fill_of_elements` is about the items of an array.
* `read_of_fill` and `values_of_read`: a record is read from its values in whatever order, and from
  nothing else.
-/

namespace Keyring.Json

variable {ρ σ α β : Type}

/-! ## Readers -/

namespace Reader

/-- The reader takes these tokens from the front, whatever follows. -/
def Takes (read : Reader ρ α) (value : List Token) (a : α) : Prop :=
  ∀ rest, read (value ++ rest) = .ok (a, rest)

/-- What the reader gives depends on the tokens only that it takes. -/
def Local (read : Reader ρ α) : Prop :=
  ∀ ts a rest, read ts = .ok (a, rest) → ∃ value, ts = value ++ rest ∧ read.Takes value a

theorem map_eq_ok_iff {read : Reader ρ α} {f : α → β} {ts rest : List Token} {b : β} :
    read.map f ts = .ok (b, rest) ↔ ∃ a, read ts = .ok (a, rest) ∧ f a = b := by
  constructor
  · intro h
    obtain ⟨⟨a, behind⟩, read, mapped⟩ := exists_of_bind_eq_ok h
    cases mapped
    exact ⟨a, read, rfl⟩
  · rintro ⟨a, read, rfl⟩
    rw [map, read]
    rfl

theorem check_eq_ok_iff {read : Reader ρ α} {f : α → Except (Error ρ) β} {ts rest : List Token}
    {b : β} : read.check f ts = .ok (b, rest) ↔ ∃ a, read ts = .ok (a, rest) ∧ f a = .ok b := by
  constructor
  · intro h
    obtain ⟨⟨a, behind⟩, read, checked⟩ := exists_of_bind_eq_ok h
    obtain ⟨b, good, last⟩ := exists_of_bind_eq_ok checked
    cases last
    exact ⟨a, read, good⟩
  · rintro ⟨a, read, good⟩
    simp only [check, read, bind, Except.bind, good]
    rfl

theorem text_eq_ok_iff {ts rest : List Token} {s : String} :
    (text ts : Except (Error ρ) _) = .ok (s, rest) ↔ ts = .text s :: rest := by
  constructor
  · intro h
    unfold text at h
    split at h <;> cases h
    rfl
  · rintro rfl
    rfl

theorem colon_eq_ok_iff {ts rest : List Token} :
    (colon ts : Except (Error ρ) _) = .ok rest ↔ ts = .colon :: rest := by
  constructor
  · intro h
    unfold colon at h
    split at h <;> cases h
    rfl
  · rintro rfl
    rfl

/-- A local reader that takes tokens takes no more and no fewer. -/
theorem Local.takes_iff {read : Reader ρ α} (h : read.Local) {value : List Token} {a : α} :
    read.Takes value a ↔ read value = .ok (a, []) := by
  constructor
  · intro takes
    simpa using takes []
  · intro whole
    obtain ⟨value', rfl, takes⟩ := h _ _ _ whole
    simpa using takes

theorem local_text : (text (ρ := ρ)).Local := by
  intro ts s rest h
  obtain rfl := text_eq_ok_iff.mp h
  exact ⟨[.text s], rfl, fun _ => rfl⟩

theorem takes_text_iff {value : List Token} {s : String} :
    (text (ρ := ρ)).Takes value s ↔ value = [.text s] :=
  local_text.takes_iff.trans text_eq_ok_iff

theorem textsRest_itemTokens (ss : List String) (isFirst : Bool) (rest : List Token) :
    (textsRest isFirst (itemTokens isFirst (ss.map fun s => [.text s]) ++ .closing .square :: rest) :
      Except (Error ρ) _) = .ok (ss, rest) := by
  induction ss generalizing isFirst with
  | nil => cases isFirst <;> rfl
  | cons s ss ih =>
    have others := ih false
    cases isFirst with
    | true | false =>
      simp only [List.map_cons, itemTokens, Bool.false_eq_true, if_true, if_false, List.nil_append,
        List.cons_append, textsRest, others]
      rfl

theorem takes_texts (ss : List String) : (texts (ρ := ρ)).Takes (textsTokens ss) ss := by
  intro rest
  have items : (textsRest true _ : Except (Error ρ) _) = _ := textsRest_itemTokens ss true rest
  rw [textsTokens, arrayTokens, List.cons_append, List.append_assoc]
  exact items

theorem Takes.check {read : Reader ρ α} {f : α → Except (Error ρ) β} {value : List Token} {a : α}
    {b : β} (h : read.Takes value a) (good : f a = .ok b) : (read.check f).Takes value b :=
  fun rest => check_eq_ok_iff.mpr ⟨a, h rest, good⟩

theorem Local.check {read : Reader ρ α} (h : read.Local) (f : α → Except (Error ρ) β) :
    (read.check f).Local := by
  intro ts b rest checked
  obtain ⟨a, read, good⟩ := check_eq_ok_iff.mp checked
  obtain ⟨value, rfl, takes⟩ := h _ _ _ read
  exact ⟨value, rfl, takes.check good⟩

theorem takes_check_text_iff {f : String → Except (Error ρ) β} {value : List Token} {b : β} :
    (text.check f).Takes value b ↔ ∃ s, value = [.text s] ∧ f s = .ok b := by
  rw [(local_text.check f).takes_iff, check_eq_ok_iff]
  simp only [text_eq_ok_iff]

theorem parse_eq_ok_iff {read : Reader ρ α} {bytes : Bytes} {a : α} :
    read.parse bytes = .ok a ↔ read (Token.ofBytes bytes) = .ok (a, []) := by
  constructor
  · intro h
    obtain ⟨⟨a', ts⟩, read, last⟩ := exists_of_bind_eq_ok h
    dsimp only at last
    split at last
    · rename_i empty
      cases last
      rw [read, List.isEmpty_iff.mp empty]
    · cases last
  · intro h
    rw [parse, h]
    rfl

end Reader

/-! ## Slots -/

/-- A field that holds a value. -/
structure Slot (ρ σ : Type) where
  name : String
  Value : Type
  get : σ → Option Value
  set : Value → σ → σ
  read : Reader ρ Value
  /-- The tokens that a value is written as. -/
  write : Value → List Token

def Slot.field (f : Slot ρ σ) : Field ρ σ where
  name := f.name
  isGiven s := (f.get s).isSome
  read s := f.read.map fun v => f.set v s

theorem Slot.read_field_eq_ok_iff {f : Slot ρ σ} {s t : σ} {ts rest : List Token} :
    f.field.read s ts = .ok (t, rest) ↔ ∃ a, f.read ts = .ok (a, rest) ∧ f.set a s = t := by
  dsimp only [field]
  exact Reader.map_eq_ok_iff

/-- The record consists of these slots, which do not disturb one another, and has no other fields. -/
structure Shape.MadeOf (shape : Shape ρ σ) (slots : List (Slot ρ σ)) : Prop where
  fields : shape.fields = slots.map Slot.field
  strict : shape.skipsUnknown = false
  distinct : (slots.map (·.name)).Nodup
  get_set : ∀ f ∈ slots, ∀ v s, f.get (f.set v s) = some v
  get_set_of_ne : ∀ f ∈ slots, ∀ g ∈ slots, f.name ≠ g.name → ∀ v s, g.get (f.set v s) = g.get s
  ext : ∀ s t, (∀ f ∈ slots, f.get s = f.get t) → s = t

/-- The entries of the values that a record holds. -/
def given (slots : List (Slot ρ σ)) (s : σ) : List (String × List Token) :=
  slots.filterMap fun f => (f.get s).map fun a => (f.name, f.write a)

/-- The entries lead from one state of the record to another: each of them gives a slot that was free
the value that it holds in the end. -/
structure Fill (slots : List (Slot ρ σ)) (s : σ) (entries : List (String × List Token)) (t : σ) :
    Prop where
  distinct : (entries.map (·.1)).Nodup
  known : ∀ e ∈ entries, ∃ f ∈ slots, f.name = e.1 ∧ f.get s = none ∧
    ∃ a, f.get t = some a ∧ f.read.Takes e.2 a
  kept : ∀ f ∈ slots, f.name ∉ entries.map (·.1) → f.get t = f.get s

namespace Fill

variable {shape : Shape ρ σ} {slots : List (Slot ρ σ)} {f : Slot ρ σ} {s t : σ}
  {entries : List (String × List Token)}

theorem nil (slots : List (Slot ρ σ)) (s : σ) : Fill slots s [] s :=
  ⟨.nil, by simp, fun _ _ _ => rfl⟩

/-- The order of the entries does not matter. -/
theorem perm {others : List (String × List Token)} (h : Fill slots s entries t)
    (perm : others.Perm entries) : Fill slots s others t where
  distinct := (perm.map _).nodup_iff.mpr h.distinct
  known e he := h.known e (perm.mem_iff.mp he)
  kept f hf notMem := h.kept f hf (mt (perm.map _).mem_iff.mpr notMem)

end Fill

namespace Shape.MadeOf

variable {shape : Shape ρ σ} {slots : List (Slot ρ σ)} {f g : Slot ρ σ} {s t : σ}
  {entries : List (String × List Token)} {value rest ts : List Token}

theorem eq_of_name_eq (made : shape.MadeOf slots) (hf : f ∈ slots) (hg : g ∈ slots)
    (h : f.name = g.name) : f = g := List.inj_on_of_nodup_map made.distinct hf hg h

theorem eq_of_fill_nil (made : shape.MadeOf slots) (h : Fill slots s [] t) : t = s :=
  made.ext t s fun f hf => h.kept f hf (by simp)

/-- An entry before others fills its slot, and the others fill the rest. -/
theorem fill_cons (made : shape.MadeOf slots) (hf : f ∈ slots) (free : f.get s = none) {a : f.Value}
    (takes : f.read.Takes value a) (h : Fill slots (f.set a s) entries t) :
    Fill slots s ((f.name, value) :: entries) t := by
  have given := made.get_set f hf a s
  have fresh : f.name ∉ entries.map (·.1) := by
    intro mem
    obtain ⟨e, he, named⟩ := List.mem_map.mp mem
    obtain ⟨g, hg, hname, free', -⟩ := h.known e he
    obtain rfl := made.eq_of_name_eq hg hf (hname.trans named)
    rw [given] at free'
    cases free'
  refine ⟨List.nodup_cons.mpr ⟨fresh, h.distinct⟩, ?_, ?_⟩
  · refine List.forall_mem_cons.mpr ⟨⟨f, hf, rfl, free, a, ?_, takes⟩, ?_⟩
    · rw [h.kept f hf fresh, given]
    · intro e he
      obtain ⟨g, hg, hname, free', known⟩ := h.known e he
      have other : f.name ≠ g.name := fun same =>
        fresh (List.mem_map.mpr ⟨e, he, (same.trans hname).symm⟩)
      exact ⟨g, hg, hname, by rw [← made.get_set_of_ne f hf g hg other a s, free'], known⟩
  · intro g hg notMem
    obtain ⟨other, notMem⟩ := not_or.mp (mt List.mem_cons.mpr notMem)
    rw [h.kept g hg notMem, made.get_set_of_ne f hf g hg (Ne.symm other) a s]

theorem exists_of_fill_cons (made : shape.MadeOf slots) {key : String}
    (h : Fill slots s ((key, value) :: entries) t) :
    ∃ f ∈ slots, f.name = key ∧ f.get s = none ∧
      ∃ a, f.read.Takes value a ∧ Fill slots (f.set a s) entries t := by
  obtain ⟨fresh, distinct⟩ := List.nodup_cons.mp h.distinct
  obtain ⟨⟨f, hf, rfl, free, a, held, takes⟩, others⟩ := List.forall_mem_cons.mp h.known
  refine ⟨f, hf, rfl, free, a, takes, distinct, ?_, ?_⟩
  · intro e he
    obtain ⟨g, hg, hname, free', known⟩ := others e he
    have other : f.name ≠ g.name := fun same =>
      fresh (List.mem_map.mpr ⟨e, he, (same.trans hname).symm⟩)
    exact ⟨g, hg, hname, by rw [made.get_set_of_ne f hf g hg other a s, free'], known⟩
  · intro g hg notMem
    by_cases same : g.name = f.name
    · obtain rfl := made.eq_of_name_eq hg hf same
      rw [held, made.get_set g hg a s]
    · rw [made.get_set_of_ne f hf g hg (Ne.symm same) a s]
      refine h.kept g hg ?_
      rw [List.map_cons, List.mem_cons, not_or]
      exact ⟨same, notMem⟩

/-! ## Entries of objects -/

theorem find?_field (made : shape.MadeOf slots) (hf : f ∈ slots) :
    (shape.fields.find? fun g => g.name == f.name) = some f.field := by
  rw [made.fields, List.find?_map]
  cases h : slots.find? ((fun g : Field ρ σ => g.name == f.name) ∘ Slot.field) with
  | none =>
    have named := List.find?_eq_none.mp h f hf
    simp [Slot.field] at named
  | some g =>
    have named : g.name = f.name := by simpa [Slot.field] using List.find?_some h
    rw [made.eq_of_name_eq (List.mem_of_find?_eq_some h) hf named]
    rfl

theorem entry_eq_ok (made : shape.MadeOf slots) (hf : f ∈ slots) (free : f.get s = none)
    {a : f.Value} (takes : f.read.Takes value a) (rest : List Token) :
    shape.entry s f.name (.colon :: (value ++ rest)) = .ok (f.set a s, rest) := by
  have unset : f.field.isGiven s = false := by simp [Slot.field, free]
  rw [entry, made.find?_field hf]
  simp only [unset, Bool.false_eq_true, if_false, Reader.colon, bind, Except.bind]
  exact Slot.read_field_eq_ok_iff.mpr ⟨a, takes rest, rfl⟩

theorem exists_of_entry (made : shape.MadeOf slots) (closed : ∀ f ∈ slots, f.read.Local)
    {key : String} (h : shape.entry s key ts = .ok (t, rest)) :
    ∃ f ∈ slots, f.name = key ∧ f.get s = none ∧
      ∃ value a, ts = .colon :: (value ++ rest) ∧ f.read.Takes value a ∧ t = f.set a s := by
  unfold entry at h
  split at h
  · rename_i field found
    have listed := List.mem_of_find?_eq_some found
    rw [made.fields] at listed
    obtain ⟨f, hf, rfl⟩ := List.mem_map.mp listed
    have named : f.name = key := by simpa [Slot.field] using List.find?_some found
    split at h
    · cases h
    · rename_i unset
      obtain ⟨behind, colon, read⟩ := exists_of_bind_eq_ok h
      obtain rfl := Reader.colon_eq_ok_iff.mp colon
      obtain ⟨a, taken, rfl⟩ := Slot.read_field_eq_ok_iff.mp read
      obtain ⟨value, rfl, takes⟩ := closed f hf _ _ _ taken
      exact ⟨f, hf, named, by simpa [Slot.field] using unset, value, a, rfl, takes, rfl⟩
  · rw [made.strict] at h
    cases h

/-- Entries that fill a record are read, in the order in which they stand. -/
theorem entries_of_fill (made : shape.MadeOf slots) (h : Fill slots s entries t) (isFirst : Bool)
    (rest : List Token) :
    shape.entries isFirst s
        (itemTokens isFirst (entries.map entryTokens) ++ .closing .curly :: rest) =
      .ok (t, rest) := by
  induction entries generalizing s isFirst with
  | nil =>
    rw [made.eq_of_fill_nil h]
    exact entries_end rest
  | cons e entries ih =>
    obtain ⟨f, hf, named, free, a, takes, others⟩ := made.exists_of_fill_cons h
    have entry := made.entry_eq_ok hf free takes
      (itemTokens false (entries.map entryTokens) ++ .closing .curly :: rest)
    rw [named] at entry
    rw [List.map_cons, itemTokens, List.append_assoc, entries_entry entry]
    exact ih others false

theorem tokens_of_nextKey {isFirst : Bool} {behind : List Token} {key? : Option String}
    (h : (nextKey isFirst ts : Except (Error ρ) _) = .ok (key?, behind)) :
    match key? with
    | none => ts = .closing .curly :: behind
    | some key => ts = (if isFirst then [] else [.comma]) ++ .text key :: behind := by
  unfold nextKey at h
  split at h
  · cases h
  · cases h
    rfl
  · split at h
    · cases h
      rfl
    · cases h
    · cases h
      rfl
    · cases h
    · cases h
    · cases h

/-- Entries that are read fill the record. -/
theorem fill_of_entries (made : shape.MadeOf slots) (closed : ∀ f ∈ slots, f.read.Local)
    {isFirst : Bool} (h : shape.entries isFirst s ts = .ok (t, rest)) :
    ∃ entries, ts = itemTokens isFirst (entries.map entryTokens) ++ .closing .curly :: rest ∧
      Fill slots s entries t := by
  -- on the number of tokens, since the entries go on with what the first of them leaves behind
  obtain ⟨k, hk⟩ : ∃ k, k = ts.length := ⟨_, rfl⟩
  induction k using Nat.strongRecOn generalizing isFirst s ts with
  | ind k ih =>
    rw [Shape.entries] at h
    obtain ⟨⟨key?, behind⟩, next, after⟩ := exists_of_bind_eq_ok h
    have tokens := tokens_of_nextKey next
    cases key? with
    | none =>
      cases after
      exact ⟨[], tokens, .nil slots _⟩
    | some key =>
      obtain ⟨⟨s₁, behind₁⟩, entry, others⟩ := exists_of_bind_eq_ok after
      dsimp only at others tokens
      split at others
      · rename_i shorter
        obtain ⟨f, hf, rfl, free, value, a, rfl, takes, rfl⟩ := made.exists_of_entry closed entry
        obtain ⟨entries, rfl, fill⟩ := ih _ (hk ▸ shorter) others rfl
        refine ⟨(f.name, value) :: entries, ?_, made.fill_cons hf free takes fill⟩
        rw [tokens]
        simp [itemTokens, entryTokens]
      · cases others

theorem nodup_names_given (made : shape.MadeOf slots) (t : σ) :
    ((given slots t).map (·.1)).Nodup := by
  have sub : ((given slots t).map (·.1)).Sublist (slots.map (·.name)) := by
    clear made
    induction slots with
    | nil => exact .slnil
    | cons f slots ih =>
      cases h : f.get t with
      | none => simpa [given, h] using ih.cons f.name
      | some a => simpa [given, h] using ih.cons_cons f.name
  exact made.distinct.sublist sub

/-- The values that a record holds fill it. -/
theorem fill_given (made : shape.MadeOf slots) (free : ∀ f ∈ slots, f.get s = none)
    (takes : ∀ f ∈ slots, ∀ a, f.get t = some a → f.read.Takes (f.write a) a) :
    Fill slots s (given slots t) t where
  distinct := made.nodup_names_given t
  known := by
    intro e he
    obtain ⟨f, hf, listed⟩ := List.mem_filterMap.mp he
    obtain ⟨a, held, rfl⟩ := Option.map_eq_some_iff.mp listed
    exact ⟨f, hf, rfl, free f hf, a, held, takes f hf a held⟩
  kept := by
    intro f hf notMem
    rw [free f hf]
    cases held : f.get t with
    | none => rfl
    | some a =>
      have mem : (f.name, f.write a) ∈ given slots t :=
        List.mem_filterMap.mpr ⟨f, hf, by rw [held]; rfl⟩
      exact absurd (List.mem_map_of_mem mem) notMem

theorem exists_of_fill (made : shape.MadeOf slots) (h : Fill slots s entries t) (hf : f ∈ slots)
    (free : f.get s = none) {a : f.Value} (held : f.get t = some a) :
    ∃ value, (f.name, value) ∈ entries ∧ f.read.Takes value a := by
  by_cases mem : f.name ∈ entries.map (·.1)
  · obtain ⟨⟨key, value⟩, he, rfl⟩ := List.mem_map.mp mem
    obtain ⟨g, hg, named, -, b, held', takes⟩ := h.known _ he
    obtain rfl := made.eq_of_name_eq hg hf named
    rw [held] at held'
    cases held'
    exact ⟨value, he, takes⟩
  · rw [h.kept f hf mem, free] at held
    cases held

/-- A record that is filled as a whole has one entry for each slot. -/
theorem exists_values (made : shape.MadeOf slots) (h : Fill slots s entries t)
    (free : ∀ f ∈ slots, f.get s = none) (full : ∀ f ∈ slots, ∃ a, f.get t = some a) :
    ∃ value : String → List Token, entries.Perm (slots.map fun f => (f.name, value f.name)) ∧
      ∀ f ∈ slots, ∀ a, f.get t = some a → f.read.Takes (value f.name) a := by
  have found (name : String) : ∃ value, ∀ f ∈ slots, f.name = name →
      (f.name, value) ∈ entries ∧ ∀ a, f.get t = some a → f.read.Takes value a := by
    by_cases known : ∃ f ∈ slots, f.name = name
    · obtain ⟨f, hf, rfl⟩ := known
      obtain ⟨a, held⟩ := full f hf
      obtain ⟨value, mem, takes⟩ := made.exists_of_fill h hf (free f hf) held
      refine ⟨value, fun g hg named => ?_⟩
      obtain rfl := made.eq_of_name_eq hg hf named
      refine ⟨mem, fun b held' => ?_⟩
      rw [held] at held'
      cases held'
      exact takes
    · exact ⟨[], fun f hf named => absurd ⟨f, hf, named⟩ known⟩
  choose value holds using found
  have distinct : (slots.map fun f => (f.name, value f.name)).Nodup := by
    refine List.Nodup.of_map (·.1) ?_
    rw [List.map_map]
    exact made.distinct
  refine ⟨value, ?_, fun f hf => (holds _ f hf rfl).2⟩
  refine (List.perm_ext_iff_of_nodup (.of_map _ h.distinct) distinct).mpr fun e => ⟨?_, ?_⟩
  · intro he
    obtain ⟨f, hf, named, -⟩ := h.known e he
    have mem := (holds _ f hf rfl).1
    have same := List.inj_on_of_nodup_map h.distinct he mem named.symm
    rw [same]
    exact List.mem_map_of_mem hf
  · intro he
    obtain ⟨f, hf, rfl⟩ := List.mem_map.mp he
    exact (holds _ f hf rfl).1

/-! ## Items of arrays -/

theorem eq_of_elements_nil {isFirst : Bool}
    (h : shape.elements [] isFirst s ts = .ok (t, rest)) : ts = .closing .square :: rest ∧ t = s := by
  unfold elements at h
  split at h
  · cases h
    exact ⟨rfl, rfl⟩
  all_goals contradiction

theorem exists_of_elements_cons (whole : shape.mayEndEarly = false) {field : Field ρ σ}
    {fields : List (Field ρ σ)} {isFirst : Bool}
    (h : shape.elements (field :: fields) isFirst s ts = .ok (t, rest)) :
    ∃ behind s₁ ts₁, ts = (if isFirst then [] else [.comma]) ++ behind ∧
      field.read s behind = .ok (s₁, ts₁) ∧ shape.elements fields false s₁ ts₁ = .ok (t, rest) := by
  unfold elements at h
  split at h
  · rename_i nil
    cases nil
  · cases h
  · cases h
  · rw [whole] at h
    cases h
  · rename_i cons _ _
    cases cons
    obtain ⟨⟨s₁, ts₁⟩, read, others⟩ := exists_of_bind_eq_ok h
    exact ⟨_, s₁, ts₁, rfl, read, others⟩
  · rename_i cons
    cases cons
    split at h
    · cases h
    · cases h
    · obtain ⟨⟨s₁, ts₁⟩, read, others⟩ := exists_of_bind_eq_ok h
      exact ⟨_, s₁, ts₁, rfl, read, others⟩
  · cases h

/-- An item that is read stands before further items. -/
theorem elements_cons {field : Field ρ σ} {fields : List (Field ρ σ)} {s₁ : σ} {first : Token}
    {behind : List Token} (isFirst : Bool) (item : first ≠ .closing .square)
    (read : field.read s (first :: (value ++ behind)) = .ok (s₁, behind)) :
    shape.elements (field :: fields) isFirst s
        ((if isFirst then [] else [.comma]) ++ (first :: value) ++ behind) =
      shape.elements fields false s₁ behind := by
  cases isFirst with
  | true =>
    rw [if_pos rfl, List.nil_append, List.cons_append, elements]
    · rw [read]
      rfl
    · exact fun h => nomatch h
    · rintro ts ⟨⟩
      exact item rfl
  | false =>
    simp only [Bool.false_eq_true, if_false, List.nil_append, List.cons_append, elements]
    split
    · contradiction
    · rename_i heq
      cases heq
      exact absurd rfl item
    · rw [read]
      rfl

/-- Items that are read fill the slots in their order. -/
theorem fill_of_elements (made : shape.MadeOf slots) (closed : ∀ f ∈ slots, f.read.Local)
    (whole : shape.mayEndEarly = false) {own : List (Slot ρ σ)} (sub : ∀ f ∈ own, f ∈ slots)
    (distinct : (own.map (·.name)).Nodup) (free : ∀ f ∈ own, f.get s = none) {isFirst : Bool}
    (h : shape.elements (own.map Slot.field) isFirst s ts = .ok (t, rest)) :
    ∃ items, ts = itemTokens isFirst items ++ .closing .square :: rest ∧
      items.length = own.length ∧ Fill slots s ((own.map (·.name)).zip items) t := by
  induction own generalizing s isFirst ts with
  | nil =>
    obtain ⟨rfl, rfl⟩ := eq_of_elements_nil h
    exact ⟨[], rfl, rfl, .nil slots _⟩
  | cons f own ih =>
    obtain ⟨behind, s₁, ts₁, rfl, read, others⟩ := exists_of_elements_cons whole h
    obtain ⟨a, taken, rfl⟩ := Slot.read_field_eq_ok_iff.mp read
    obtain ⟨mem, sub⟩ := List.forall_mem_cons.mp sub
    obtain ⟨unset, free⟩ := List.forall_mem_cons.mp free
    obtain ⟨fresh, distinct⟩ := List.nodup_cons.mp distinct
    obtain ⟨value, rfl, takes⟩ := closed f mem _ _ _ taken
    have free₁ : ∀ g ∈ own, g.get (f.set a s) = none := by
      intro g hg
      have other : f.name ≠ g.name := fun same =>
        fresh (List.mem_map.mpr ⟨g, hg, same.symm⟩)
      rw [made.get_set_of_ne f mem g (sub g hg) other, free g hg]
    obtain ⟨items, rfl, length, fill⟩ := ih sub distinct free₁ others
    refine ⟨value :: items, ?_, congrArg (· + 1) length, made.fill_cons mem unset takes fill⟩
    simp [itemTokens]

/-! ## Whole records -/

/-- An object of entries that fill a record is read as the record. -/
theorem read_of_fill (made : shape.MadeOf slots) (h : Fill slots s entries t) (rest : List Token) :
    shape.read s (recordTokens entries ++ rest) = .ok (t, rest) := by
  have tokens : recordTokens entries ++ rest =
      .opening .curly :: (itemTokens true (entries.map entryTokens) ++ .closing .curly :: rest) := by
    simp [recordTokens]
  rw [tokens]
  exact made.entries_of_fill h true rest

/-- Nothing else is read as a whole record than an object of its values, or an array of them in the
order of the slots. -/
theorem values_of_read (made : shape.MadeOf slots) (closed : ∀ f ∈ slots, f.read.Local)
    (whole : shape.mayEndEarly = false) (free : ∀ f ∈ slots, f.get s = none)
    (full : ∀ f ∈ slots, ∃ a, f.get t = some a) (h : shape.read s ts = .ok (t, rest)) :
    ∃ value : String → List Token,
      (∀ f ∈ slots, ∀ a, f.get t = some a → f.read.Takes (value f.name) a) ∧
      ((∃ entries, entries.Perm (slots.map fun f => (f.name, value f.name)) ∧
          ts = recordTokens entries ++ rest) ∨
        ts = arrayTokens (slots.map fun f => value f.name) ++ rest) := by
  unfold Shape.read at h
  split at h
  · obtain ⟨entries, rfl, fill⟩ := made.fill_of_entries closed h
    obtain ⟨value, perm, takes⟩ := made.exists_values fill free full
    refine ⟨value, takes, Or.inl ⟨entries, perm, ?_⟩⟩
    simp [recordTokens]
  · rw [made.fields] at h
    obtain ⟨items, rfl, length, fill⟩ :=
      made.fill_of_elements closed whole (fun _ hf => hf) made.distinct free h
    obtain ⟨value, perm, takes⟩ := made.exists_values fill free full
    have same : (slots.map (·.name)).zip items =
        (slots.map (·.name)).map fun name => (name, value name) := by
      have own : ∀ e ∈ (slots.map (·.name)).zip items, e = (e.1, value e.1) := by
        intro e he
        obtain ⟨f, -, rfl⟩ := List.mem_map.mp (perm.mem_iff.mp he)
        rfl
      have names : ((slots.map (·.name)).zip items).map (·.1) = slots.map (·.name) :=
        List.map_fst_zip (by simp [length])
      calc (slots.map (·.name)).zip items
          = ((slots.map (·.name)).zip items).map id := (List.map_id _).symm
        _ = ((slots.map (·.name)).zip items).map fun e => (e.1, value e.1) :=
          List.map_congr_left own
        _ = (((slots.map (·.name)).zip items).map (·.1)).map fun name => (name, value name) :=
          by rw [List.map_map]; rfl
        _ = (slots.map (·.name)).map fun name => (name, value name) := by rw [names]
    have values : items = slots.map fun f => value f.name := by
      have second := congrArg (List.map (·.2)) same
      rw [List.map_snd_zip (by simp [length]), List.map_map, List.map_map] at second
      exact second
    refine ⟨value, takes, Or.inr ?_⟩
    rw [values, arrayTokens]
    simp
  · cases h
  · cases h

end Shape.MadeOf

end Keyring.Json
