import UsageDiary.Json.Forms
import UsageDiary.Proofs.Day.Order
import UsageDiary.Proofs.Json.Record

/-!
# JSON forms read back

Every type that has a JSON form is read from the text of the form as what
was written. The numbers in the value have to fit their types: ids have 128
bits, counts have 32 or 64, and a leap second follows the last second of a
minute. For each type these conditions are its `Fits`: a form is read back
if they hold (`ofJson?_toJson`), and they hold of all that is read
(`fits_of_ofJson?`). Main statement: through the text, a value of any of the
types is read back exactly if it fits (`Json.forms_read_back`).
-/

namespace UsageDiary

open Json (ofId ofInstant nullable record?_zip id?_ofId instant?_ofInstant required?_some of_required?
  of_optional? of_array? fits_of_id? kept_of_instant? le_of_natural?)

/-- The text of a plain value is read as that value. -/
theorem Json.decode?_render {α : Type} {v : Json} (h : v.Plain) (ofJson? : Json → Option α) :
    Json.decode? ofJson? v.render = ofJson? v := by
  rw [decode?, render, String.toList_ofList, parse?_text h, Option.bind_some]

/-! ## Activities and reports -/

/-- The numbers of an activity fit their types. -/
structure Activity.Fits (a : Activity) : Prop where
  id : a.id.Fits
  starts : a.starts.Kept
  ends : a.ends.Kept
  device : ∀ id ∈ a.device, id.Fits

namespace Activity

theorem plain_toJson (a : Activity) : a.toJson.Plain :=
  ⟨trivial, trivial, trivial, Json.plain_nullable Json.plain_ofId _,
    Json.plain_nullable Json.plain_string _, trivial⟩

theorem ofJson?_toJson {a : Activity} (h : a.Fits) : ofJson? a.toJson = some a := by
  have fields := record?_zip ["id", "start_time", "end_time", "device_id", "app"]
    [ofId a.id, ofInstant a.starts, ofInstant a.ends, nullable ofId a.device,
      nullable .string a.app] (by decide) rfl 5
  change Json.record? _ 5 a.toJson = _ at fields
  simp only [ofJson?, fields, List.map_cons, List.map_nil, Option.bind_eq_bind, Option.bind_some,
    required?_some, id?_ofId h.id, instant?_ofInstant h.starts, instant?_ofInstant h.ends,
    Json.optional?_id h.device, Json.optional?_string, Option.pure_def]

theorem fits_of_ofJson? {v : Json} {a : Activity} (h : ofJson? v = some a) : a.Fits := by
  obtain ⟨fields, -, h⟩ := Option.bind_eq_some_iff.mp h
  split at h
  · simp only [Option.bind_eq_bind, Option.bind_eq_some_iff, Option.pure_def, Option.some.injEq] at h
    obtain ⟨id, hid, starts, hs, ends, he, device, hd, app, -, rfl⟩ := h
    exact ⟨of_required? fits_of_id? hid, of_required? kept_of_instant? hs,
      of_required? kept_of_instant? he, of_optional? fits_of_id? hd⟩
  · cases h

end Activity

/-- The numbers of a use of an application fit their types. -/
structure AppUse.Fits (u : AppUse) : Prop where
  starts : u.starts.Kept
  ends : u.ends.Kept

namespace AppUse

theorem plain_toJson (u : AppUse) : u.toJson.Plain := ⟨trivial, trivial, trivial, trivial⟩

theorem ofJson?_toJson {u : AppUse} (h : u.Fits) : ofJson? u.toJson = some u := by
  have fields := record?_zip ["application", "start_time", "end_time"]
    [.string u.application, ofInstant u.starts, ofInstant u.ends] (by decide) rfl 3
  change Json.record? _ 3 u.toJson = _ at fields
  simp only [ofJson?, fields, List.map_cons, List.map_nil, Option.bind_eq_bind, Option.bind_some,
    required?_some, Json.string?_string, instant?_ofInstant h.starts, instant?_ofInstant h.ends,
    Option.pure_def]

theorem fits_of_ofJson? {v : Json} {u : AppUse} (h : ofJson? v = some u) : u.Fits := by
  obtain ⟨fields, -, h⟩ := Option.bind_eq_some_iff.mp h
  split at h
  · simp only [Option.bind_eq_bind, Option.bind_eq_some_iff, Option.pure_def, Option.some.injEq] at h
    obtain ⟨application, -, starts, hs, ends, he, rfl⟩ := h
    exact ⟨of_required? kept_of_instant? hs, of_required? kept_of_instant? he⟩
  · cases h

end AppUse

/-- The numbers of a report fit their types. -/
structure AppReport.Fits (r : AppReport) : Prop where
  deviceTime : r.deviceTime.Kept
  device : ∀ id ∈ r.device, id.Fits
  uses : ∀ u ∈ r.uses, u.Fits

namespace AppReport

theorem plain_toJson (r : AppReport) : r.toJson.Plain :=
  ⟨trivial, Json.plain_nullable Json.plain_ofId _, Json.plain_array_map AppUse.plain_toJson _, trivial⟩

theorem ofJson?_toJson {r : AppReport} (h : r.Fits) : ofJson? r.toJson = some r := by
  have fields := record?_zip ["device_date_time", "device_id", "activities"]
    [ofInstant r.deviceTime, nullable ofId r.device, .array (r.uses.map AppUse.toJson)]
    (by decide) rfl 3
  change Json.record? _ 3 r.toJson = _ at fields
  have uses := Json.array?_map fun u hu => AppUse.ofJson?_toJson (h.uses u hu)
  simp only [ofJson?, fields, List.map_cons, List.map_nil, Option.bind_eq_bind, Option.bind_some,
    required?_some, instant?_ofInstant h.deviceTime, Json.optional?_id h.device, uses, Option.pure_def]

theorem fits_of_ofJson? {v : Json} {r : AppReport} (h : ofJson? v = some r) : r.Fits := by
  obtain ⟨fields, -, h⟩ := Option.bind_eq_some_iff.mp h
  split at h
  · simp only [Option.bind_eq_bind, Option.bind_eq_some_iff, Option.pure_def, Option.some.injEq] at h
    obtain ⟨time, ht, device, hd, uses, hu, rfl⟩ := h
    exact ⟨of_required? kept_of_instant? ht, of_optional? fits_of_id? hd,
      of_required? (of_array? AppUse.fits_of_ofJson?) hu⟩
  · cases h

end AppReport

/-! ## Visits of the network -/

theorem insertLabel_of_lt {label : String} {labels : List String} (h : ∀ l ∈ labels, l < label) :
    insertLabel label labels = labels ++ [label] := by
  induction labels with
  | nil => rfl
  | cons l rest ih =>
    have below := h l List.mem_cons_self
    have ne : l ≠ label := by rintro rfl; exact String.lt_irrefl l below
    rw [insertLabel, if_neg (String.lt_asymm below), if_neg ne,
      ih fun m hm => h m (List.mem_cons_of_mem l hm), List.cons_append]

/-- Labels that are in ascending order stay as they are. -/
theorem labelSet_of_ascending {labels : List String} (h : labels.Pairwise (· < ·)) :
    labelSet labels = labels :=
  foldl_put_eq_self (fun _ _ => insertLabel_of_lt) h

theorem mem_insertLabel {label l : String} {labels : List String} (h : l ∈ insertLabel label labels) :
    l = label ∨ l ∈ labels := by
  induction labels with
  | nil => exact .inl (List.mem_singleton.mp h)
  | cons m rest ih =>
    rw [insertLabel] at h
    split at h
    · exact List.mem_cons.mp h
    · split at h
      · exact .inr h
      · rcases List.mem_cons.mp h with rfl | h
        · exact .inr List.mem_cons_self
        · exact (ih h).imp_right (List.mem_cons_of_mem m)

theorem ascending_insertLabel (label : String) {labels : List String} (h : labels.Pairwise (· < ·)) :
    (insertLabel label labels).Pairwise (· < ·) := by
  induction labels with
  | nil => exact List.pairwise_singleton ..
  | cons l rest ih =>
    obtain ⟨above, ordered⟩ := List.pairwise_cons.mp h
    rw [insertLabel]
    split
    · next lt =>
      refine List.pairwise_cons.mpr ⟨fun m hm => ?_, h⟩
      rcases List.mem_cons.mp hm with rfl | hm
      · exact lt
      · exact String.lt_trans lt (above m hm)
    · next ge =>
      split
      · exact h
      · next ne =>
        refine List.pairwise_cons.mpr ⟨fun m hm => ?_, ih ordered⟩
        rcases mem_insertLabel hm with rfl | hm
        · exact Std.lt_of_le_of_ne (Std.not_lt.mp ge) ne
        · exact above m hm

theorem ascending_labelSet (labels : List String) : (labelSet labels).Pairwise (· < ·) := by
  induction labels using List.reverseRecOn with
  | nil => exact .nil
  | append_singleton labels label ih =>
    rw [labelSet, List.foldl_append]
    exact ascending_insertLabel label ih

/-- The numbers of a visit fit their types, and its labels ascend. -/
structure NetworkVisit.Fits (n : NetworkVisit) : Prop where
  categories : n.categories.Pairwise (· < ·)
  time : ∀ t ∈ n.time, t.Kept
  device : ∀ id ∈ n.device, id.Fits

namespace NetworkVisit

theorem plain_toJson (n : NetworkVisit) : n.toJson.Plain :=
  ⟨Json.plain_array_map Json.plain_string _, trivial, Json.plain_nullable Json.plain_ofInstant _,
    Json.plain_nullable Json.plain_ofId _, trivial⟩

theorem ofJson?_toJson {n : NetworkVisit} (h : n.Fits) : ofJson? n.toJson = some n := by
  have fields := record?_zip ["categories", "url", "event_time", "device_id"]
    [.array (n.categories.map .string), .string n.url, nullable ofInstant n.time,
      nullable ofId n.device] (by decide) rfl 2
  change Json.record? _ 2 n.toJson = _ at fields
  have labels : Json.array? Json.string? (.array (n.categories.map .string)) = some n.categories :=
    Json.array?_map fun _ _ => rfl
  simp only [ofJson?, fields, List.map_cons, List.map_nil, Option.bind_eq_bind, Option.bind_some,
    required?_some, labels, labelSet_of_ascending h.categories, Json.string?_string,
    Json.optional?_instant h.time, Json.optional?_id h.device, Option.pure_def]

theorem fits_of_ofJson? {v : Json} {n : NetworkVisit} (h : ofJson? v = some n) : n.Fits := by
  obtain ⟨fields, -, h⟩ := Option.bind_eq_some_iff.mp h
  split at h
  · simp only [Option.bind_eq_bind, Option.bind_eq_some_iff, Option.pure_def, Option.some.injEq] at h
    obtain ⟨labels, -, url, -, time, ht, device, hd, rfl⟩ := h
    exact ⟨ascending_labelSet labels, of_optional? kept_of_instant? ht, of_optional? fits_of_id? hd⟩
  · cases h

end NetworkVisit

/-! ## Goals -/

namespace Json

/-- Digits are appended as long as the number they make fits 64 bits. -/
theorem appendDigits_of_le {n : Nat} {ds : List Char}
    (h : ds.foldl (fun n c => n * 10 + Text.digitValue c) n ≤ largestWord) :
    appendDigits n ds = (ds.foldl (fun n c => n * 10 + Text.digitValue c) n, []) := by
  induction ds generalizing n with
  | nil => rfl
  | cons c ds ih =>
    have grows (m : Nat) (ds : List Char) :
        m ≤ ds.foldl (fun n c => n * 10 + Text.digitValue c) m := by
      clear * -
      induction ds generalizing m with
      | nil => exact Nat.le_refl m
      | cons d ds ih => exact Nat.le_trans (by omega) (ih (m * 10 + Text.digitValue d))
    rw [List.foldl_cons] at h ⊢
    rw [appendDigits, if_pos (Nat.le_trans (grows _ ds) h), ih h]

/-- A number of 64 bits is scaled by no power of ten. -/
theorem scaled_decimal {n : Nat} (h : n ≤ largestWord) : scaled (Text.decimal n) = (n, 0) := by
  have all : ∀ c ∈ Text.decimal n, Text.isDigit c = true := fun _ => Text.isDigit_of_mem_padded
  have value : Text.digitsValue (Text.decimal n) = n := Text.digitsValue_padded 1 n
  have whole : (Text.decimal n).span Text.isDigit = (Text.decimal n, []) := by
    have := numberEnds_nil.digits_append all
    rwa [List.append_nil] at this
  have append : appendDigits 0 (Text.decimal n) = (n, []) := by
    rw [appendDigits_of_le (by change Text.digitsValue _ ≤ _; rwa [value])]
    change (Text.digitsValue _, _) = _
    rw [value]
  simp only [scaled, whole, append]
  rfl

theorem isFiniteText_decimal {n : Nat} (h : n < 2 ^ 53) : isFiniteText (Text.decimal n) = true := by
  have unsigned : (Text.decimal n).head? ≠ some '-' := by
    intro minus
    have mem : '-' ∈ Text.decimal n := List.mem_of_head? minus
    exact absurd (Text.isDigit_of_mem_padded mem) (by decide)
  have exact : nearest n = n := by
    rcases Nat.eq_zero_or_pos n with rfl | pos
    · rfl
    · exact nearest_of_lt ((Nat.log2_lt (by omega)).mpr h)
  have one : nearest (Nat.pow 10 (0 : Int).toNat) = 1 := by decide
  have below : n * 1 < infinite := by
    rw [Nat.mul_one]
    exact Nat.lt_trans h (by decide +kernel)
  rw [isFiniteText, if_neg unsigned, scaled_decimal (by unfold largestWord; omega)]
  simp only [isFinite, exact, one, below]
  simp [mostTens]

end Json

/-- The number of minutes of a budget fits 32 bits. -/
def GoalKind.Fits : GoalKind → Prop
  | noGo => True
  | budget maxMinutes => maxMinutes ≤ mostMinutes

namespace GoalKind

theorem plain_toJson (k : GoalKind) : k.toJson.Plain := by
  cases k with
  | noGo => exact ⟨trivial, trivial⟩
  | budget n => exact ⟨trivial, trivial, trivial⟩

/-- The form of a kind keeps to the bounds at any depth. -/
theorem fieldsBounded_toJson {k : GoalKind} (h : k.Fits) (levels : Nat) {fields : List (String × Json)}
    (form : k.toJson = .object fields) : Json.fieldsBounded levels fields = true := by
  cases k with
  | noGo => cases form; cases levels <;> rfl
  | budget n =>
    cases form
    have finite : Json.isFiniteText (Text.decimal n) = true :=
      Json.isFiniteText_decimal (Nat.lt_of_le_of_lt h (by decide))
    cases levels <;> simp [Json.fieldsBounded, Json.isBounded, finite]

theorem ofJson?_toJson {k : GoalKind} (h : k.Fits) (outer : Nat) : ofJson? outer k.toJson = some k := by
  have bounded {fields : List (String × Json)} (form : k.toJson = .object fields) :=
    fieldsBounded_toJson h (Json.mostNesting - (outer + 1)) form
  cases k with
  | noGo =>
    have tag : Json.field? "type" [("type", .string "no_go")] = some (some (.string "no_go")) :=
      Json.field?_of_mem (by simp) (by simp)
    simp [ofJson?, toJson, bounded rfl, tag]
  | budget n =>
    have tag : Json.field? "type" [("type", .string "budget"), ("max_duration_minutes", .natural n)] =
        some (some (.string "budget")) := Json.field?_of_mem (by simp) (by simp)
    have most : Json.field? "max_duration_minutes"
        [("type", .string "budget"), ("max_duration_minutes", .natural n)] = some (some (.natural n)) :=
      Json.field?_of_mem (by simp) (by simp)
    have number : Json.natural? mostMinutes (.natural n) = some n := Json.natural?_natural h
    simp [ofJson?, toJson, bounded rfl, tag, most, number]

theorem fits_of_ofJson? {outer : Nat} {v : Json} {k : GoalKind} (h : ofJson? outer v = some k) :
    k.Fits := by
  unfold ofJson? at h
  split at h
  · split at h
    · cases h
    · simp only [Option.bind_eq_bind, Option.bind_eq_some_iff, Option.pure_def] at h
      obtain ⟨tag, -, word, -, h⟩ := h
      split at h
      · cases h; trivial
      · simp only [Option.bind_eq_some_iff, Option.some.injEq] at h
        obtain ⟨_, -, minutes, hm, rfl⟩ := h
        exact of_required? le_of_natural? hm
      · cases h
  · cases h; trivial
  · obtain ⟨minutes, hm, rfl⟩ := Option.map_eq_some_iff.mp h
    exact le_of_natural? hm
  · cases h

end GoalKind

/-- The numbers of a goal fit their types. -/
structure Goal.Fits (g : Goal) : Prop where
  id : g.id.Fits
  category : g.category.Fits
  kind : g.kind.Fits
  activeSince : g.activeSince.Kept

namespace Goal

theorem plain_toJson (g : Goal) : g.toJson.Plain :=
  ⟨trivial, trivial, g.kind.plain_toJson, trivial, trivial⟩

theorem ofJson?_toJson {g : Goal} (h : g.Fits) : ofJson? g.toJson = some g := by
  have fields := record?_zip ["id", "activity_category_id", "kind", "active_since"]
    [ofId g.id, ofId g.category, g.kind.toJson, ofInstant g.activeSince] (by decide) rfl 4
  change Json.record? _ 4 g.toJson = _ at fields
  simp only [ofJson?, fields, List.map_cons, List.map_nil, Option.bind_eq_bind, Option.bind_some,
    required?_some, id?_ofId h.id, id?_ofId h.category, GoalKind.ofJson?_toJson h.kind,
    instant?_ofInstant h.activeSince, Option.pure_def]

theorem fits_of_ofJson? {v : Json} {g : Goal} (h : ofJson? v = some g) : g.Fits := by
  obtain ⟨fields, -, h⟩ := Option.bind_eq_some_iff.mp h
  split at h
  · simp only [Option.bind_eq_bind, Option.bind_eq_some_iff, Option.pure_def, Option.some.injEq] at h
    obtain ⟨id, hid, category, hc, kind, hk, since, hs, rfl⟩ := h
    exact ⟨of_required? fits_of_id? hid, of_required? fits_of_id? hc,
      of_required? GoalKind.fits_of_ofJson? hk, of_required? kept_of_instant? hs⟩
  · cases h

end Goal

/-! ## Buddies, notifications and settings -/

@[simp] theorem BuddyStatus.ofWord?_word (s : BuddyStatus) : ofWord? s.word = some s := by
  cases s <;> rfl

@[simp] theorem ConflictPolicy.ofWord?_word (p : ConflictPolicy) : ofWord? p.word = some p := by
  cases p <;> rfl

/-- The ids of a buddy fit 128 bits. -/
structure Buddy.Fits (b : Buddy) : Prop where
  id : b.id.Fits
  destination : b.destination.Fits

namespace Buddy

theorem plain_toJson (b : Buddy) : b.toJson.Plain := ⟨trivial, trivial, trivial, trivial⟩

theorem ofJson?_toJson {b : Buddy} (h : b.Fits) : ofJson? b.toJson = some b := by
  have fields := record?_zip ["id", "anonymous_destination_id", "sending_status"]
    [ofId b.id, ofId b.destination, .string b.status.word] (by decide) rfl 3
  change Json.record? _ 3 b.toJson = _ at fields
  simp only [ofJson?, fields, List.map_cons, List.map_nil, Option.bind_eq_bind, Option.bind_some,
    required?_some, id?_ofId h.id, id?_ofId h.destination, Json.word?, BuddyStatus.ofWord?_word,
    Option.pure_def]

theorem fits_of_ofJson? {v : Json} {b : Buddy} (h : ofJson? v = some b) : b.Fits := by
  obtain ⟨fields, -, h⟩ := Option.bind_eq_some_iff.mp h
  split at h
  · simp only [Option.bind_eq_bind, Option.bind_eq_some_iff, Option.pure_def, Option.some.injEq] at h
    obtain ⟨id, hid, destination, hd, status, -, rfl⟩ := h
    exact ⟨of_required? fits_of_id? hid, of_required? fits_of_id? hd⟩
  · cases h

end Buddy

/-- The numbers of a notification fit their types. -/
structure Notification.Fits (n : Notification) : Prop where
  id : n.id.Fits
  user : n.user.Fits
  goal : n.goal.Fits
  category : n.category.Fits
  activity : n.activity.Fits
  createdAt : n.createdAt.Kept

namespace Notification

theorem plain_toJson (n : Notification) : n.toJson.Plain :=
  ⟨trivial, trivial, trivial, trivial, n.activity.plain_toJson,
    Json.plain_nullable Json.plain_string _, trivial, trivial⟩

theorem ofJson?_toJson {n : Notification} (h : n.Fits) : ofJson? n.toJson = some n := by
  have fields := record?_zip
    ["id", "user_anonymized_id", "goal_id", "activity_category_id", "activity", "url",
      "created_at"]
    [ofId n.id, ofId n.user, ofId n.goal, ofId n.category, n.activity.toJson,
      nullable .string n.url, ofInstant n.createdAt] (by decide) rfl 7
  change Json.record? _ 7 n.toJson = _ at fields
  simp only [ofJson?, fields, List.map_cons, List.map_nil, Option.bind_eq_bind, Option.bind_some,
    required?_some, id?_ofId h.id, id?_ofId h.user, id?_ofId h.goal, id?_ofId h.category,
    Activity.ofJson?_toJson h.activity, Json.optional?_string, instant?_ofInstant h.createdAt,
    Option.pure_def]

theorem fits_of_ofJson? {v : Json} {n : Notification} (h : ofJson? v = some n) : n.Fits := by
  obtain ⟨fields, -, h⟩ := Option.bind_eq_some_iff.mp h
  split at h
  · simp only [Option.bind_eq_bind, Option.bind_eq_some_iff, Option.pure_def, Option.some.injEq] at h
    obtain ⟨id, hid, user, hu, goal, hg, category, hc, activity, ha, url, -, created, ht, rfl⟩ := h
    exact ⟨of_required? fits_of_id? hid, of_required? fits_of_id? hu, of_required? fits_of_id? hg,
      of_required? fits_of_id? hc, of_required? Activity.fits_of_ofJson? ha,
      of_required? kept_of_instant? ht⟩
  · cases h

end Notification

/-- The numbers of settings fit 64 bits. -/
structure Settings.Fits (s : Settings) : Prop where
  combineMillis : s.combineMillis ≤ maxWord
  skipMillis : s.skipMillis ≤ maxWord
  skewToleranceMillis : s.skewToleranceMillis ≤ maxWord
  minimumMillis : s.minimumMillis ≤ maxWord
  maxUrlLength : s.maxUrlLength ≤ maxWord

namespace Settings

theorem plain_toJson (s : Settings) : s.toJson.Plain :=
  ⟨trivial, trivial, trivial, trivial, trivial, trivial, trivial, trivial, trivial⟩

theorem ofJson?_toJson {s : Settings} (h : s.Fits) : ofJson? s.toJson = some s := by
  have fields := record?_zip
    ["combine_interval_ms", "skip_window_ms", "clock_skew_tolerance_ms",
      "minimum_activity_duration_ms", "max_url_length", "conflict_policy", "database_url",
      "log_level"]
    [.natural s.combineMillis, .natural s.skipMillis, .natural s.skewToleranceMillis,
      .natural s.minimumMillis, .natural s.maxUrlLength, .string s.policy.word,
      .string s.databaseUrl, .string s.logLevel] (by decide) rfl 8
  change Json.record? _ 8 s.toJson = _ at fields
  simp only [ofJson?, fields, List.map_cons, List.map_nil, Option.bind_eq_bind, Option.bind_some,
    required?_some, Json.natural?_natural h.combineMillis, Json.natural?_natural h.skipMillis,
    Json.natural?_natural h.skewToleranceMillis, Json.natural?_natural h.minimumMillis,
    Json.natural?_natural h.maxUrlLength, Json.word?, ConflictPolicy.ofWord?_word,
    Json.string?_string, Option.pure_def]

theorem fits_of_ofJson? {v : Json} {s : Settings} (h : ofJson? v = some s) : s.Fits := by
  obtain ⟨fields, -, h⟩ := Option.bind_eq_some_iff.mp h
  split at h
  · simp only [Option.bind_eq_bind, Option.bind_eq_some_iff, Option.pure_def, Option.some.injEq] at h
    obtain ⟨combine, hc, skip, hs, skew, hk, minimum, hm, url, hu, -, -, -, -, -, -, rfl⟩ := h
    exact ⟨of_required? le_of_natural? hc, of_required? le_of_natural? hs,
      of_required? le_of_natural? hk, of_required? le_of_natural? hm, of_required? le_of_natural? hu⟩
  · cases h

end Settings

/-! ## Days of weeks -/

namespace Week

theorem plain_daysToJson (days : List (Date × Id)) : (daysToJson days).Plain :=
  Json.plain_array_map (fun day => by obtain ⟨date, id⟩ := day; exact ⟨trivial, trivial, trivial⟩) days

theorem daysOfJson?_daysToJson {days : List (Date × Id)} (h : ∀ day ∈ days, day.2.Fits) :
    daysOfJson? (daysToJson days) = some days :=
  Json.array?_map fun day mem => by
    simp only [entryOfJson?, Json.date?_ofDate, id?_ofId (h day mem), Option.bind_eq_bind,
      Option.bind_some, Option.pure_def]

end Week

/-! ## All forms -/

/-- A value of any of the types is read from the text of its JSON form as what
was written, exactly if the numbers in it fit their types. -/
theorem Json.forms_read_back :
    (∀ a : Activity, decode? Activity.ofJson? a.toJson.render = some a ↔ a.Fits) ∧
    (∀ u : AppUse, decode? AppUse.ofJson? u.toJson.render = some u ↔ u.Fits) ∧
    (∀ r : AppReport, decode? AppReport.ofJson? r.toJson.render = some r ↔ r.Fits) ∧
    (∀ n : NetworkVisit, decode? NetworkVisit.ofJson? n.toJson.render = some n ↔ n.Fits) ∧
    (∀ g : Goal, decode? Goal.ofJson? g.toJson.render = some g ↔ g.Fits) ∧
    (∀ k : GoalKind, decode? (GoalKind.ofJson? 0) k.toJson.render = some k ↔ k.Fits) ∧
    (∀ b : Buddy, decode? Buddy.ofJson? b.toJson.render = some b ↔ b.Fits) ∧
    (∀ n : Notification, decode? Notification.ofJson? n.toJson.render = some n ↔ n.Fits) ∧
    (∀ s : Settings, decode? Settings.ofJson? s.toJson.render = some s ↔ s.Fits) := by
  refine ⟨fun a => ?_, fun u => ?_, fun r => ?_, fun n => ?_, fun g => ?_, fun k => ?_, fun b => ?_,
    fun n => ?_, fun s => ?_⟩
  · rw [decode?_render a.plain_toJson]
    exact ⟨Activity.fits_of_ofJson?, Activity.ofJson?_toJson⟩
  · rw [decode?_render u.plain_toJson]
    exact ⟨AppUse.fits_of_ofJson?, AppUse.ofJson?_toJson⟩
  · rw [decode?_render r.plain_toJson]
    exact ⟨AppReport.fits_of_ofJson?, AppReport.ofJson?_toJson⟩
  · rw [decode?_render n.plain_toJson]
    exact ⟨NetworkVisit.fits_of_ofJson?, NetworkVisit.ofJson?_toJson⟩
  · rw [decode?_render g.plain_toJson]
    exact ⟨Goal.fits_of_ofJson?, Goal.ofJson?_toJson⟩
  · rw [decode?_render k.plain_toJson]
    exact ⟨GoalKind.fits_of_ofJson?, fun h => GoalKind.ofJson?_toJson h 0⟩
  · rw [decode?_render b.plain_toJson]
    exact ⟨Buddy.fits_of_ofJson?, Buddy.ofJson?_toJson⟩
  · rw [decode?_render n.plain_toJson]
    exact ⟨Notification.fits_of_ofJson?, Notification.ofJson?_toJson⟩
  · rw [decode?_render s.plain_toJson]
    exact ⟨Settings.fits_of_ofJson?, Settings.ofJson?_toJson⟩

namespace Sample

/-- An activity from the first instant of the calendar into a leap second. -/
def longest : Activity where
  id := ⟨1⟩
  starts := (Instant.ofParts? (-8334601228800) 0).getD .epoch
  ends := (Instant.ofParts? 1483228799 1500000000).getD .epoch
  device := some ⟨2 ^ 128 - 1⟩
  app := some "\"mail\" \\ \n\x01"

/-- A report of an application that was used for that long. -/
def report : AppReport := ⟨longest.ends, none, [⟨"mail", longest.starts, longest.ends⟩]⟩

/-- A visit under two labels, without a device. -/
def labelled : NetworkVisit := ⟨["a", "ä"], "https://mail", some longest.ends, none⟩

/-- A goal with the largest budget. -/
def generous : Goal := ⟨⟨2⟩, ⟨3⟩, .budget 4294967295, longest.starts⟩

/-- A notice of the activity. -/
def notice : Notification := ⟨⟨4⟩, ⟨5⟩, ⟨2⟩, ⟨3⟩, longest, none, longest.ends⟩

theorem fits_longest : longest.Fits := ⟨by decide, by decide, by decide, by decide⟩

end Sample

open Sample in
theorem Json.forms_read_back_sample :
    decode? Activity.ofJson? longest.toJson.render = some longest ∧
    (∀ u ∈ report.uses, decode? AppUse.ofJson? u.toJson.render = some u) ∧
    decode? AppReport.ofJson? report.toJson.render = some report ∧
    decode? NetworkVisit.ofJson? labelled.toJson.render = some labelled ∧
    decode? Goal.ofJson? generous.toJson.render = some generous ∧
    decode? (GoalKind.ofJson? 0) generous.kind.toJson.render = some generous.kind ∧
    decode? Buddy.ofJson? (Buddy.mk ⟨6⟩ ⟨7⟩ .rejected).toJson.render = some ⟨⟨6⟩, ⟨7⟩, .rejected⟩ ∧
    decode? Notification.ofJson? notice.toJson.render = some notice ∧
    decode? Settings.ofJson? (Settings.toJson {}).render = some {} := by
  have use : ∀ u ∈ report.uses, u.Fits := by
    intro u hu
    rw [List.mem_singleton.mp hu]
    exact ⟨by decide, by decide⟩
  have kind : generous.kind.Fits := Nat.le_refl _
  obtain ⟨activity, uses, reports, visit, goal, kinds, buddy, notification, settings⟩ :=
    forms_read_back
  exact ⟨(activity _).mpr fits_longest, fun u hu => (uses u).mpr (use u hu),
    (reports _).mpr ⟨by decide, nofun, use⟩, (visit _).mpr ⟨by decide, by decide, nofun⟩,
    (goal _).mpr ⟨by decide, by decide, kind, by decide⟩, (kinds _).mpr kind,
    (buddy _).mpr ⟨by decide, by decide⟩,
    (notification _).mpr ⟨by decide, by decide, by decide, by decide, fits_longest, by decide⟩,
    (settings _).mpr ⟨by decide, by decide, by decide, by decide, by decide⟩⟩

end UsageDiary
