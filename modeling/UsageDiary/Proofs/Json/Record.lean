import UsageDiary.Json.Record
import UsageDiary.Proofs.Calendar.InstantText
import UsageDiary.Proofs.Json.Reader

/-!
# Records read back

The fields of a record are found by their names (`Json.record?_zip`), and a
field of each kind is read as what was written: ids, instants, dates,
numbers, optional fields and arrays. What holds of all values that a reader
gives holds of optional and repeated ones (`Json.of_optional?`,
`Json.of_array?`). What a field is written as is plain (`Json.Plain`), so its
text is read back too.
-/

namespace UsageDiary.Json

variable {α : Type} {write : α → Json} {read : Json → Option α}

/-! ## Fields by name -/

/-- A field whose name is the only one of its kind is found. -/
theorem field?_of_mem {fields : List (String × Json)} (nodup : (fields.map (·.1)).Nodup)
    {name : String} {v : Json} (h : (name, v) ∈ fields) : field? name fields = some (some v) := by
  suffices only : fields.filter (·.1 == name) = [(name, v)] by rw [field?, only]
  induction fields with
  | nil => cases h
  | cons f rest ih =>
    rw [List.map_cons, List.nodup_cons] at nodup
    rcases List.mem_cons.mp h with rfl | h
    · have others : rest.filter (·.1 == name) = [] := by
        rw [List.filter_eq_nil_iff]
        intro g hg same
        exact nodup.1 (List.mem_map.mpr ⟨g, hg, by simpa using same⟩)
      rw [List.filter_cons_of_pos (by simp), others]
    · have ne : f.1 ≠ name := fun e => nodup.1 (List.mem_map.mpr ⟨(name, v), h, e.symm⟩)
      rw [List.filter_cons_of_neg (by simpa using ne), ih nodup.2 h]

theorem mapM_names {look : String → Option (Option Json)} {names : List String} {values : List Json}
    (same : names.length = values.length)
    (found : ∀ f ∈ names.zip values, look f.1 = some (some f.2)) :
    names.mapM look = some (values.map some) := by
  induction names generalizing values with
  | nil =>
    rw [List.length_nil, eq_comm, List.length_eq_zero_iff] at same
    subst same
    rfl
  | cons name names ih =>
    obtain ⟨v, values, rfl⟩ : ∃ v vs, values = v :: vs :=
      List.exists_cons_of_ne_nil (by rintro rfl; cases same)
    rw [List.zip_cons_cons] at found
    have first := found (name, v) List.mem_cons_self
    have others := ih (Nat.succ.inj same) fun f hf => found f (List.mem_cons_of_mem _ hf)
    simp [List.mapM_cons, first, others]

/-- An object with the fields of a record in their order has their values. -/
theorem record?_zip (names : List String) (values : List Json) (nodup : names.Nodup)
    (same : names.length = values.length) (least : Nat) :
    record? names least (object (names.zip values)) = some (values.map some) := by
  have firsts : (names.zip values).map (·.1) = names := List.map_fst_zip (Nat.le_of_eq same)
  exact mapM_names same fun f hf => field?_of_mem (firsts.symm ▸ nodup) hf

/-! ## Fields of each kind -/

@[simp] theorem required?_some (read : Json → Option α) (v : Json) :
    required? read (some v) = read v := rfl

@[simp] theorem string?_string (s : String) : string? (string s) = some s := rfl

theorem id?_ofId {id : Id} (h : id.Fits) : id? (ofId id) = some id := by
  rw [ofId, id?, string?_string, Option.bind_some, Id.toList_toString, Id.parse?_text h]

theorem instant?_ofInstant {t : Instant} (h : t.Kept) : instant? (ofInstant t) = some t := by
  rw [ofInstant, instant?, string?_string, Option.bind_some, String.toList_ofList,
    Instant.parse?_text h]

theorem date?_ofDate (d : Date) : date? (ofDate d) = some d := by
  rw [ofDate, date?, string?_string, Option.bind_some, Date.toList_toString, Date.parseLoose?_text]

theorem natural?_natural {most n : Nat} (h : n ≤ most) : natural? most (natural n) = some n :=
  if_pos h

/-- An optional field is read as what it was written from, unless that was
written as `null`. -/
theorem optional?_nullable {o : Option α} (h : ∀ a ∈ o, write a ≠ null ∧ read (write a) = some a) :
    optional? read (some (nullable write o)) = some o := by
  cases o with
  | none => rfl
  | some a =>
    obtain ⟨value, back⟩ := h a rfl
    rw [nullable, optional?]
    · rw [back, Option.map_some]
    · exact value

theorem optional?_id {o : Option Id} (h : ∀ id ∈ o, id.Fits) :
    optional? id? (some (nullable ofId o)) = some o :=
  optional?_nullable fun id hid => ⟨nofun, id?_ofId (h id hid)⟩

theorem optional?_instant {o : Option Instant} (h : ∀ t ∈ o, t.Kept) :
    optional? instant? (some (nullable ofInstant o)) = some o :=
  optional?_nullable fun t ht => ⟨nofun, instant?_ofInstant (h t ht)⟩

theorem optional?_string (o : Option String) :
    optional? string? (some (nullable string o)) = some o :=
  optional?_nullable fun _ _ => ⟨nofun, rfl⟩

theorem array?_map {as : List α} (h : ∀ a ∈ as, read (write a) = some a) :
    array? read (array (as.map write)) = some as := by
  rw [array?]
  induction as with
  | nil => rfl
  | cons a as ih =>
    have first := h a List.mem_cons_self
    have others := ih fun b hb => h b (List.mem_cons_of_mem a hb)
    simp [first, others]

/-! ## What is read

What a reader gives keeps to the ranges in which values are read back. -/

theorem fits_of_id? {v : Json} {id : Id} (h : id? v = some id) : id.Fits := by
  obtain ⟨s, -, parsed⟩ := Option.bind_eq_some_iff.mp h
  exact Id.fits_of_parse? parsed

theorem kept_of_instant? {v : Json} {t : Instant} (h : instant? v = some t) : t.Kept := by
  obtain ⟨s, -, parsed⟩ := Option.bind_eq_some_iff.mp h
  exact Instant.kept_of_parse? parsed

theorem le_of_natural? {most n : Nat} {v : Json} (h : natural? most v = some n) : n ≤ most := by
  unfold natural? at h
  split at h
  · split at h
    · next le => cases h; exact le
    · cases h
  · cases h

section Sound

variable {P : α → Prop} (sound : ∀ {v a}, read v = some a → P a)
include sound

theorem of_required? {field : Option Json} {a : α} (h : required? read field = some a) : P a := by
  obtain ⟨v, -, here⟩ := Option.bind_eq_some_iff.mp h
  exact sound here

theorem of_optional? {field : Option Json} {o : Option α} (h : optional? read field = some o) :
    ∀ a ∈ o, P a := by
  intro a ha
  unfold optional? at h
  split at h
  · cases h; cases ha
  · cases h; cases ha
  · obtain ⟨b, here, rfl⟩ := Option.map_eq_some_iff.mp h
    cases ha
    exact sound here

theorem of_array? {v : Json} {as : List α} (h : array? read v = some as) : ∀ a ∈ as, P a := by
  unfold array? at h
  split at h
  · next items =>
    induction items generalizing as with
    | nil => cases h; simp
    | cons item items ih =>
      rw [List.mapM_cons] at h
      simp only [Option.bind_eq_bind, Option.bind_eq_some_iff, Option.pure_def, Option.some.injEq] at h
      obtain ⟨a, first, rest, others, rfl⟩ := h
      exact List.forall_mem_cons.mpr ⟨sound first, ih others⟩
  · cases h

end Sound

/-! ## Plain fields -/

@[simp] theorem plain_string (s : String) : (string s).Plain := trivial
@[simp] theorem plain_ofId (id : Id) : (ofId id).Plain := trivial
@[simp] theorem plain_ofInstant (t : Instant) : (ofInstant t).Plain := trivial

theorem plain_nullable (h : ∀ a, (write a).Plain) (o : Option α) : (nullable write o).Plain := by
  cases o with
  | none => trivial
  | some a => exact h a

theorem plain_array_map (h : ∀ a, (write a).Plain) (as : List α) : (array (as.map write)).Plain :=
  itemsPlain_iff.mpr fun v hv => by
    obtain ⟨a, -, rfl⟩ := List.mem_map.mp hv
    exact h a

end UsageDiary.Json
