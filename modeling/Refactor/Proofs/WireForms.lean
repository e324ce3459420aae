import Refactor.Report
import Refactor.Settings.Basic

/-!
# Records as JSON and back

What is absent, empty or false has no member in the encoding of a record, and the decoding puts it back. So every
report, every list of edits and all settings are read back as they were, with one exception: format options that are
null cannot be told from none.

* `Members.lookup_ofList`: which member of an object has a key;
* `Record.Gives`: what a record is read as, field by field;
* `Gives.field`, `Gives.defaulted`, `Gives.option`: the three ways in which a field is read back;
* `decode_toJson` for each type, from the inner ones to the outer ones.
-/

namespace Refactor

namespace Json

/-! ## Members -/

theorem Members.lookup_cons (k : String) (m : String × Json) (ms : Members) :
    List.lookup k (m :: ms) = if k = m.1 then some m.2 else ms.lookup k := by
  rw [List.lookup_cons]
  by_cases h : k = m.1
  · rw [if_pos h, beq_iff_eq.mpr h]
  · rw [if_neg h, beq_eq_false_iff_ne.mpr h]

theorem Members.lookup_insert (k k' : String) (v : Json) (ms : Members) :
    (ms.insert k v).lookup k' = if k' = k then some v else ms.lookup k' := by
  induction ms with
  | nil => exact Members.lookup_cons k' (k, v) []
  | cons m ms ih =>
    rw [Members.insert]
    split
    · rename_i hm
      rw [Members.lookup_cons, Members.lookup_cons, hm]
      split <;> rfl
    · split
      · exact Members.lookup_cons k' (k, v) (m :: ms)
      · rename_i hm _
        rw [Members.lookup_cons, Members.lookup_cons, ih]
        by_cases h : k' = k
        · rw [if_pos h, if_pos h, if_neg (h ▸ hm)]
        · rw [if_neg h, if_neg h]

/-- Of several members with one key the last counts. -/
theorem Members.lookup_ofList (k : String) (ms : List (String × Json)) :
    (Members.ofList ms).lookup k = ms.reverse.lookup k := by
  have hfold : ∀ acc : Members, (ms.foldl (fun acc m => acc.insert m.1 m.2) acc).lookup k =
      (ms.reverse ++ acc).lookup k := by
    induction ms with
    | nil => exact fun acc => rfl
    | cons m ms ih =>
      intro acc
      rw [List.foldl_cons, ih, List.reverse_cons, List.append_assoc, List.lookup_append, List.lookup_append,
        Members.lookup_insert, List.singleton_append, Members.lookup_cons]
  rw [Members.ofList, hfold, List.append_nil]

theorem field?_ofMembers (k : String) (ms : List (String × Json)) : (ofMembers ms).field? k = ms.reverse.lookup k :=
  Members.lookup_ofList k ms

/-- A member that is there only for a value. -/
theorem Members.lookup_optional {α : Type} (k k' : String) (o : Option α) (f : α → Json) :
    List.lookup k (o.toList.map fun a => (k', f a)).reverse = if k = k' then o.map f else none := by
  cases o with
  | none => simp
  | some a => exact Members.lookup_cons k (k', f a) []

/-! ## Values -/

namespace Decoder

theorem unsigned_nat {bits n : Nat} (h : n < Nat.pow 2 bits) : unsigned bits (.nat n) = .ok n := by
  rw [Json.nat, unsigned, if_pos ⟨Int.natCast_nonneg n, Int.ofNat_lt.mpr h⟩, Int.toNat_natCast]

theorem word_nat (n : UInt32) : word (.nat n.toNat) = .ok n := by
  rw [word, unsigned_nat n.toNat_lt, Except.map, UInt32.ofNat_toNat]

theorem long_nat (n : UInt64) : long (.nat n.toNat) = .ok n := by
  rw [long, unsigned_nat n.toNat_lt, Except.map, UInt64.ofNat_toNat]

theorem text_ofText (t : Text) : text (.ofText t) = .ok t := by
  rw [Json.ofText, text, string, stringAs, Except.map, String.toList_ofList]

theorem string_str (s : String) : string (.str s) = .ok s := rfl

theorem any_eq (v : Json) : any v = .ok v := rfl

theorem bool_bool (b : Bool) : bool (.bool b) = .ok b := rfl

/-- A list is read back if each item is. -/
theorem list_map {α : Type} {d : Decoder α} {f : α → Json} (h : ∀ a, d (f a) = .ok a) (as : List α) :
    d.list (.arr (as.map f)) = .ok as := by
  rw [list]
  induction as with
  | nil => rfl
  | cons a as ih => rw [List.map_cons, List.mapM_cons, h, ih]; rfl

end Decoder

namespace Record

variable {α β : Type} {ms : Members} {name : String} {d : Decoder α}

/-- The record is read as `a` from the members. -/
structure Gives (r : Record α) (ms : Members) (a : α) : Prop where
  named_eq : r.named ms = ⟨[], none, some a⟩

namespace Gives

theorem decode {r : Record α} {a : α} (h : r.Gives ms a) (name : String) : r.decode name (.obj ms) = .ok a := by
  rw [Record.decode, ofMembers, h.named_eq]
  rfl

theorem seq {f : Record (α → β)} {r : Record α} {g : α → β} {a : α} (hf : f.Gives ms g) (hr : r.Gives ms a) :
    (f <*> r).Gives ms (g a) := by
  constructor
  change (f.followedBy r).named ms = _
  simp only [followedBy, hf.named_eq, hr.named_eq]
  rfl

theorem map {g : α → β} {r : Record α} {a : α} (h : r.Gives ms a) : (g <$> r).Gives ms (g a) :=
  seq (f := const g) ⟨rfl⟩ h

/-- A field is read from the member of its name. -/
theorem field {v : Json} {a : α} {ifAbsent ifShort : Option α} (hv : ms.lookup name = some v) (hd : d v = .ok a) :
    (field name d ifAbsent ifShort).Gives ms a := by
  constructor
  simp only [Record.field, hv, hd]

/-- A field without a member of its name has the value for this case. -/
theorem absent {a : α} {ifShort : Option α} (h : ms.lookup name = none) :
    (Record.field name d (some a) ifShort).Gives ms a := by
  constructor
  simp only [Record.field, h]

/-- A field with a default is read back if its member is there for every other value. -/
theorem defaulted {a b : α} (h : (ms.lookup name).elim (b = a) fun v => d v = .ok a) :
    (defaulted name d b).Gives ms a := by
  cases hv : ms.lookup name with
  | none =>
    rw [hv, Option.elim_none] at h
    exact h ▸ absent hv
  | some v =>
    rw [hv, Option.elim_some] at h
    exact field hv h

/-- A field that may be absent is read back if its member is there exactly for a value. -/
theorem option {o : Option α} {f : α → Json} {ifShort : Option (Option α)} (hv : ms.lookup name = o.map f)
    (hd : ∀ a, d (f a) = .ok a) (hn : ∀ a, f a ≠ .null) :
    (Record.field name d.option (some none) ifShort).Gives ms o := by
  cases o with
  | none => exact absent hv
  | some a =>
    refine field hv ?_
    rw [Decoder.option, hd]
    · rfl
    · exact hn a

end Gives

end Record

end Json

/-! ## Edits and their logs -/

open Json (Members Decoder)
open Json.Record

theorem Location.decode_toJson (l : Location) : decode l.toJson = .ok l := by
  refine Gives.decode (.seq (.map (.field ?_ (Decoder.word_nat l.line))) (.field ?_ (Decoder.word_nat l.offset))) _
  all_goals simp [Members.lookup_ofList, Members.lookup_cons]

theorem CodeEdit.decode_toJson (e : CodeEdit) : decode e.toJson = .ok e := by
  refine Gives.decode (.seq (.seq (.map (.field ?_ e.start.decode_toJson)) (.field ?_ e.stop.decode_toJson))
    (.field ?_ (Decoder.text_ofText e.newText))) _
  all_goals simp [Members.lookup_ofList, Members.lookup_cons]

theorem TextEdit.decode_toJson (e : TextEdit) : decode e.toJson = .ok e := by
  refine Gives.decode (.seq (.seq (.seq (.seq (.map (.field ?_ (Decoder.word_nat e.startLine)))
    (.field ?_ (Decoder.word_nat e.startOffset))) (.field ?_ (Decoder.word_nat e.endLine)))
    (.field ?_ (Decoder.word_nat e.endOffset))) (.field ?_ (Decoder.text_ofText e.newText))) _
  all_goals simp [Members.lookup_ofList, Members.lookup_cons]

theorem FileEdits.decode_toJson (f : FileEdits) : decode f.toJson = .ok f := by
  refine Gives.decode (.seq (.seq (.map (.field ?_ (Decoder.string_str f.fileName)))
    (.field ?_ (Decoder.list_map CodeEdit.decode_toJson f.changes))) (.defaulted ?_)) _
  all_goals
    cases f.isNew <;> simp [Members.lookup_ofList, Members.lookup_cons, Decoder.bool_bool]

theorem LogEntry.decode_toJson (e : LogEntry) : decode e.toJson = .ok e := by
  refine Gives.decode (.seq (.seq (.seq (.map (.field ?_ (Decoder.word_nat e.line)))
    (.option ?_ Decoder.word_nat nofun)) (.field ?_ (Decoder.text_ofText e.oldText)))
    (.field ?_ (Decoder.text_ofText e.newText))) _
  all_goals simp [Members.lookup_ofList, Members.lookup_cons, Members.lookup_optional, List.lookup_append]

theorem ChangeRecord.decodePath_str (p : Path) : decodePath (.str p.spelling) = .ok p := rfl

theorem ChangeRecord.decode_toJson (r : ChangeRecord) : decode r.toJson = .ok r := by
  refine Gives.decode (.seq (.seq (.map (.field ?_ (Decoder.string_str r.fileName)))
    (.field ?_ (decodePath_str r.path))) (.field ?_ (Decoder.list_map LogEntry.decode_toJson r.entries))) _
  all_goals simp [Members.lookup_ofList, Members.lookup_cons]

theorem Report.decode_toJson (r : Report) : decode r.toJson = .ok r := by
  refine Gives.decode (.seq (.seq (.seq (.seq (.map (.field ?_ (Decoder.bool_bool r.success)))
    (.field ?_ (Decoder.string_str r.message))) (.option ?_ Decoder.string_str nofun)) (.defaulted ?_))
    (.field ?_ (Decoder.bool_bool r.preview))) _
  all_goals
    by_cases h : r.files = [] <;>
    simp [h, Members.lookup_ofList, Members.lookup_cons, Members.lookup_optional, List.lookup_append,
      Decoder.list_map ChangeRecord.decode_toJson]

/-! ## Settings -/

theorem ReadinessSettings.decode_toJson (s : ReadinessSettings) : decode s.toJson = .ok s := by
  refine Gives.decode (.seq (.map (.field ?_ (Decoder.long_nat s.timeoutMs)))
    (.field ?_ (Decoder.long_nat s.pollIntervalMs))) _
  all_goals simp [Members.lookup_ofList, Members.lookup_cons]

theorem DiscoverySettings.decode_toJson (s : DiscoverySettings) : decode s.toJson = .ok s := by
  refine Gives.decode (.seq (.seq (.seq (.seq (.map (.field ?_ (Decoder.word_nat s.maxReferenceAttempts)))
    (.field ?_ (Decoder.long_nat s.attemptIntervalMs))) (.field ?_ (Decoder.long_nat s.scanTimeoutMs)))
    (.field ?_ (Decoder.list_map Decoder.string_str s.skipDirs)))
    (.field ?_ (Decoder.list_map Decoder.string_str s.extensions))) _
  all_goals simp [Members.lookup_ofList, Members.lookup_cons]

theorem LogSettings.decode_toJson (s : LogSettings) : decode s.toJson = .ok s := by
  have hformat : LogFormat.decode (.str s.format.name) = .ok s.format := by cases s.format <;> rfl
  refine Gives.decode (.seq (.map (.field ?_ (Decoder.string_str s.level))) (.field ?_ hformat)) _
  all_goals simp [Members.lookup_ofList, Members.lookup_cons]

/-- A value, unless it is null. -/
def Json.nonNull? : Json → Option Json
  | .null => none
  | v => some v

theorem Json.bind_nonNull?_eq_self_iff {o : Option Json} : o.bind nonNull? = o ↔ o ≠ some .null := by
  cases o with
  | none => simp
  | some v => cases v <;> simp [nonNull?]

theorem Json.Decoder.option_any (v : Json) : Decoder.any.option v = .ok v.nonNull? := by cases v <;> rfl

/-- Format options that are null are read as none. -/
theorem ServerSettings.decode_toJson (s : ServerSettings) :
    decode s.toJson = .ok { s with formatOptions := s.formatOptions.bind Json.nonNull? } := by
  refine Gives.decode (.seq (.seq (.seq (.map (.field ?_ (Decoder.list_map Decoder.string_str s.command)))
    (.field ?_ (Decoder.long_nat s.requestTimeoutMs))) (.field ?_ (Decoder.any_eq s.preferences))) (.defaulted ?_)) _
  all_goals
    cases s.formatOptions <;> simp [Members.lookup_ofList, Members.lookup_cons, Decoder.option_any]

theorem Settings.decode_toJson (s : Settings) :
    decode s.toJson =
      .ok { s with server := { s.server with formatOptions := s.server.formatOptions.bind Json.nonNull? } } := by
  refine Gives.decode (.seq (.seq (.seq (.map (.field ?_ s.server.decode_toJson)) (.field ?_ s.readiness.decode_toJson))
    (.field ?_ s.discovery.decode_toJson)) (.field ?_ s.logging.decode_toJson)) _
  all_goals simp [Members.lookup_ofList, Members.lookup_cons]

theorem Settings.decode_toJson_iff (s : Settings) :
    decode s.toJson = .ok s ↔ s.server.formatOptions ≠ some .null := by
  rw [decode_toJson, Except.ok.injEq, ← Json.bind_nonNull?_eq_self_iff]
  constructor
  · intro h
    exact congrArg (fun s => s.server.formatOptions) h
  · intro h
    rw [h]

/-! ## What is left out -/

theorem Report.field?_suggestion (r : Report) : r.toJson.field? "suggestion" = r.suggestion.map .str := by
  by_cases h : r.files = [] <;>
  simp [toJson, h, Json.field?_ofMembers, Members.lookup_cons, Members.lookup_optional, List.lookup_append]

theorem Report.field?_files (r : Report) :
    r.toJson.field? "files" = if r.files = [] then none else some (.arr (r.files.map ChangeRecord.toJson)) := by
  by_cases h : r.files = [] <;>
  simp [toJson, h, Json.field?_ofMembers, Members.lookup_cons, Members.lookup_optional, List.lookup_append]

theorem LogEntry.field?_column (e : LogEntry) : e.toJson.field? "column" = e.column.map fun c => .nat c.toNat := by
  simp [toJson, Json.field?_ofMembers, Members.lookup_cons, Members.lookup_optional, List.lookup_append]

theorem FileEdits.field?_isNewFile (f : FileEdits) :
    f.toJson.field? "isNewFile" = if f.isNew then some (.bool true) else none := by
  cases h : f.isNew <;> simp [toJson, h, Json.field?_ofMembers, Members.lookup_cons]

theorem ServerSettings.field?_formatOptions (s : ServerSettings) :
    s.toJson.field? "format_options" = s.formatOptions := by
  cases h : s.formatOptions <;> simp [toJson, h, Json.field?_ofMembers, Members.lookup_cons]

/-- Reports, edits and settings are read back from their encodings, settings exactly if they do not have null for
format options. Members are left out for what is absent, empty or false, and for nothing else. -/
theorem wire_forms_read_back :
    (∀ r : Report, Report.decode r.toJson = .ok r) ∧ (∀ f : FileEdits, FileEdits.decode f.toJson = .ok f) ∧
    (∀ e : TextEdit, TextEdit.decode e.toJson = .ok e) ∧
    (∀ s : Settings, Settings.decode s.toJson = .ok s ↔ s.server.formatOptions ≠ some .null) ∧
    (∀ r : Report, (r.toJson.field? "suggestion" = none ↔ r.suggestion = none) ∧
      (r.toJson.field? "files" = none ↔ r.files = [])) ∧
    (∀ e : LogEntry, e.toJson.field? "column" = none ↔ e.column = none) ∧
    (∀ f : FileEdits, f.toJson.field? "isNewFile" = none ↔ f.isNew = false) ∧
    ∀ s : ServerSettings, s.toJson.field? "format_options" = none ↔ s.formatOptions = none := by
  refine ⟨Report.decode_toJson, FileEdits.decode_toJson, TextEdit.decode_toJson, Settings.decode_toJson_iff,
    fun r => ⟨?_, ?_⟩, fun e => ?_, fun f => ?_, fun s => ?_⟩
  · rw [r.field?_suggestion, Option.map_eq_none_iff]
  · simp [r.field?_files]
  · rw [e.field?_column, Option.map_eq_none_iff]
  · simp [f.field?_isNewFile]
  · rw [s.field?_formatOptions]

end Refactor
