import Refactor.Json.Reader
import Refactor.Json.Writer
import Refactor.Proofs.FrameSegments

/-!
# Written values and what is read back

A value without doubles is read back from its text as it was written, up to the limit on nesting. Nothing
below a blank is written, so a text of several values can be cut at newlines.

* `readString_escapeChar`: every character of a string is read back, whatever it is;
* `readNumber_writeInt`: integers of 64 bits are read back up to where their digits end;
* `ReadAs`, `readBack`: values in their texts, by induction on values;
* `parseWithin?_write`: whole texts, with the exact condition on nesting;
* `noControl_write`: the characters of a text.
-/

namespace Refactor.Json

/-! ## Strings -/

theorem hexValue?_hexDigit : ∀ n < 16, hexValue? (hexDigit n) = some n := by decide

theorem hexQuad?_hexDigit {n : Nat} (h : n < 0x20) : hexQuad? '0' '0' (hexDigit (n / 16)) (hexDigit n) = some n := by
  have hlow : hexDigit n = hexDigit (n % 16) := by rw [hexDigit, hexDigit, Nat.mod_mod]
  have hzero : hexValue? '0' = some 0 := by decide
  rw [hlow, hexQuad?, hzero, hexValue?_hexDigit _ (by omega), hexValue?_hexDigit _ (by omega)]
  simp only [Option.bind_eq_bind, Option.bind_some, Option.pure_def, Option.some.injEq]
  omega

/-- A character stands for itself unless it is escaped, by a letter or by its number. -/
theorem escapeChar_cases (c : Char) :
    (∃ e, escaped? e = some c ∧ 0x20 ≤ e.toNat ∧ escapeChar c = ['\\', e]) ∨
    (c.toNat < 0x20 ∧ escapeChar c = ['\\', 'u', '0', '0', hexDigit (c.toNat / 16), hexDigit c.toNat]) ∨
    (0x20 ≤ c.toNat ∧ c ≠ '"' ∧ c ≠ '\\' ∧ escapeChar c = [c]) := by
  by_cases h : c ∈ ['"', '\\', '\x08', '\t', '\n', '\x0c', '\r']
  · simp only [List.mem_cons, List.not_mem_nil, or_false] at h
    rcases h with rfl | rfl | rfl | rfl | rfl | rfl | rfl <;> exact .inl ⟨_, rfl, by decide, rfl⟩
  · simp only [List.mem_cons, List.not_mem_nil, or_false, not_or] at h
    obtain ⟨hq, hb, h⟩ := h
    by_cases hc : c.toNat < 0x20
    · exact .inr (.inl ⟨hc, by simp only [escapeChar, hq, hb, h, hc, ↓reduceIte]⟩)
    · exact .inr (.inr ⟨by omega, hq, hb, by simp only [escapeChar, hq, hb, h, hc, ↓reduceIte]⟩)

/-- A character of a string is read back from what stands for it. -/
theorem readString_escapeChar (c : Char) (t : Text) :
    readString (escapeChar c ++ t) = (readString t).map fun p => (c :: p.1, p.2) := by
  rcases escapeChar_cases c with ⟨e, he, -, h⟩ | ⟨hc, h⟩ | ⟨hc, hq, hb, h⟩
  · have hu : e ≠ 'u' := by
      rintro rfl
      cases he
    rw [h, List.cons_append, List.singleton_append, readString, he]
    exact fun _ _ _ _ _ hu' _ => hu hu'
  · have hu : ¬ (0xd800 ≤ c.toNat ∧ c.toNat < 0xdc00) := by omega
    have hl : ¬ (0xdc00 ≤ c.toNat ∧ c.toNat < 0xe000) := by omega
    simp only [h, List.cons_append, List.nil_append, readString, hexQuad?_hexDigit hc, if_neg hu, if_neg hl,
      Char.ofNat_toNat]
  · rw [h, List.singleton_append, readString, if_neg (by simp [hb]; omega)]
    all_goals simp_all

theorem readString_flatMap_escapeChar (s t : Text) : readString (s.flatMap escapeChar ++ '"' :: t) = some (s, t) := by
  induction s with
  | nil => rfl
  | cons c s ih =>
    rw [List.flatMap_cons, List.append_assoc, readString_escapeChar, ih]
    rfl

/-! ## Numbers -/

/-- No part of a number stands at the start of the text. -/
def EndsNumber (t : Text) : Prop := ∀ c ∈ t.head?, c.isDigit = false ∧ c ≠ '.' ∧ c ≠ 'e' ∧ c ≠ 'E'

theorem head?_toDigits_ne_zero {n : Nat} (h : n ≠ 0) : (Nat.toDigits 10 n).head? ≠ some '0' := by
  induction n using Nat.strongRecOn with
  | ind n ih =>
    by_cases hn : n < 10
    · have hdigit : ∀ k < 10, k ≠ 0 → k.digitChar ≠ '0' := by decide
      rw [Nat.toDigits_of_lt_base hn]
      simpa using hdigit n hn h
    · have hhead := ih (n / 10) (by omega) (by omega)
      obtain ⟨d, ds, hds⟩ := List.exists_cons_of_ne_nil (Nat.toDigits_ne_nil (n := n / 10) (b := 10))
      rw [Nat.toDigits_of_base_le (by omega) (by omega), hds]
      rwa [hds] at hhead

theorem readDigits_append {ds t : Text} (hne : ds ≠ []) (hd : ∀ c ∈ ds, c.isDigit = true)
    (ht : ∀ c ∈ t.head?, c.isDigit = false) : readDigits (ds ++ t) = some (ds, t) := by
  have htake : t.takeWhile Char.isDigit = [] := by cases t <;> simp_all
  have hdrop : t.dropWhile Char.isDigit = t := by cases t <;> simp_all
  rw [readDigits, List.takeWhile_append_of_pos hd, List.dropWhile_append_of_pos hd, htake, hdrop, List.append_nil]
  cases ds with
  | nil => exact absurd rfl hne
  | cons d ds => rfl

theorem readWhole_toDigits (n : Nat) {t : Text} (ht : EndsNumber t) :
    readWhole (Nat.toDigits 10 n ++ t) = some (Nat.toDigits 10 n, t) := by
  by_cases hn : n = 0
  · rw [hn, Nat.toDigits_zero]
    rfl
  · have hread := readDigits_append (t := t) (Nat.toDigits_ne_nil (n := n) (b := 10))
      (fun c hc => Nat.isDigit_of_mem_toDigits (by decide) (by decide) hc) fun c hc => (ht c hc).1
    obtain ⟨d, ds, hds⟩ := List.exists_cons_of_ne_nil (Nat.toDigits_ne_nil (n := n) (b := 10))
    have hd : d ≠ '0' := by simpa [hds] using head?_toDigits_ne_zero hn
    rw [← hread, hds, List.cons_append, readWhole]
    exact fun _ h => hd (List.cons.inj h).1

theorem digitsValue_toDigits (n : Nat) : digitsValue (Nat.toDigits 10 n) = n := by
  rw [Frame.digitsValue_eq, Nat.ofDigitChars_ten_toDigits]

/-- Digits after an optional sign, with nothing after them that belongs to a number, are an integer. -/
theorem readNumber_digits (negative : Bool) (n : Nat) {t : Text} (ht : EndsNumber t) :
    readNumber ((if negative then ['-'] else []) ++ (Nat.toDigits 10 n ++ t)) =
      (numberOfInteger? negative n).map fun m => (m, t) := by
  have hminus : ∀ u, Nat.toDigits 10 n ++ t ≠ '-' :: u := by
    intro u hu
    obtain ⟨d, ds, hds⟩ := List.exists_cons_of_ne_nil (Nat.toDigits_ne_nil (n := n) (b := 10))
    have hdigit := Nat.isDigit_of_mem_toDigits (b := 10) (n := n) (c := d) (by decide) (by decide) (by simp [hds])
    rw [hds, List.cons_append, List.cons.injEq] at hu
    simp [hu.1] at hdigit
  unfold readNumber
  split
  rename_i sign u hsign
  obtain ⟨rfl, rfl⟩ : sign = negative ∧ u = Nat.toDigits 10 n ++ t := by
    cases negative <;> split at hsign <;> simp_all
  rw [readWhole_toDigits n ht]
  simp only [Option.bind_eq_bind, Option.bind_some]
  split
  · simp [EndsNumber] at ht
  · simp [EndsNumber] at ht
  · simp [EndsNumber] at ht
  · rw [digitsValue_toDigits]
    cases numberOfInteger? sign n <;> rfl

/-- An integer from -2^63 up to 2^64 - 1. -/
def InRange (i : Int) : Prop := -(signedLimit : Int) ≤ i ∧ i < (UInt64.size : Nat)

theorem readNumber_writeInt {i : Int} (hi : InRange i) {t : Text} (ht : EndsNumber t) :
    readNumber (writeInt i ++ t) = some (.int i, t) := by
  obtain ⟨hlow, hhigh⟩ := hi
  cases i with
  | ofNat n =>
    have hn : n < UInt64.size := Int.ofNat_lt.mp hhigh
    have hread := readNumber_digits false n ht
    rw [numberOfInteger?, if_neg Bool.false_ne_true, if_pos hn] at hread
    exact hread
  | negSucc n =>
    have hn : n + 1 ≠ 0 ∧ n + 1 ≤ signedLimit := by omega
    have hread := readNumber_digits true (n + 1) ht
    rw [numberOfInteger?, if_pos rfl, if_pos hn] at hread
    exact hread

/-! ## Values without doubles -/

/-- Every number in the value is an integer of 64 bits, with or without a sign. -/
inductive Integral : Json → Prop where
  | null : Integral .null
  | bool (b : Bool) : Integral (.bool b)
  | int {i : Int} (h : InRange i) : Integral (.num (.int i))
  | str (s : String) : Integral (.str s)
  | arr {items : List Json} (h : ∀ v ∈ items, Integral v) : Integral (.arr items)
  | obj {members : Members} (h : ∀ m ∈ members, Integral m.2) : Integral (.obj members)

mutual

/-- How many arrays and objects of the value lie in each other. -/
def nesting : Json → Nat
  | .arr items => nestingOfItems items + 1
  | .obj members => nestingOfMembers members + 1
  | _ => 0

/-- The deepest nesting of the items. -/
def nestingOfItems : List Json → Nat
  | [] => 0
  | v :: vs => max (nesting v) (nestingOfItems vs)

/-- The deepest nesting of the members. -/
def nestingOfMembers : List (String × Json) → Nat
  | [] => 0
  | (_, v) :: ms => max (nesting v) (nestingOfMembers ms)

end

theorem writeItems_cons {v : Json} {vs : List Json} (h : vs ≠ []) :
    writeItems (v :: vs) = write v ++ ',' :: writeItems vs := by
  rw [writeItems]
  exact h

theorem writeMembers_cons {k : String} {v : Json} {ms : Members} (h : ms ≠ []) :
    writeMembers ((k, v) :: ms) = writeString k.toList ++ ':' :: (write v ++ ',' :: writeMembers ms) := by
  rw [writeMembers]
  exact h

theorem mem_writeInt {c : Char} {i : Int} (h : c ∈ writeInt i) : c = '-' ∨ c.isDigit = true := by
  cases i with
  | ofNat n => exact .inr (Nat.isDigit_of_mem_toDigits (by decide) (by decide) h)
  | negSucc n =>
    rcases List.mem_cons.mp h with rfl | h
    · exact .inl rfl
    · exact .inr (Nat.isDigit_of_mem_toDigits (by decide) (by decide) h)

theorem writeInt_ne_nil (i : Int) : writeInt i ≠ [] := by
  cases i with
  | ofNat n => exact Nat.toDigits_ne_nil
  | negSucc n => exact List.cons_ne_nil _ _

theorem isSpace_of_isDigit {c : Char} (h : c.isDigit = true) : isSpace c = false := by
  rw [Bool.eq_false_iff]
  intro hs
  simp only [isSpace, Bool.or_eq_true, beq_iff_eq] at hs
  rcases hs with ((rfl | rfl) | rfl) | rfl <;> simp at h

theorem skipSpace_cons {c : Char} (h : isSpace c = false) (t : Text) : skipSpace (c :: t) = c :: t := by
  simp [skipSpace, h]

/-! ## Reading values back -/

/-- The text of `v` is read as `w` wherever it stands, if its nesting is allowed. -/
structure ReadAs (v w : Json) : Prop where
  /-- The text starts neither with a blank nor like the end of an array. -/
  head : ∃ c t, write v = c :: t ∧ isSpace c = false ∧ c ≠ ']'
  read (fuel depth : Nat) {t : Text} (ht : EndsNumber t) (hf : 2 * (write v).length ≤ fuel + 1) :
    readValue fuel depth (write v ++ t) = if v.nesting ≤ depth then some (w, t) else none

theorem endsNumber_cons {c : Char} (h : c = ',' ∨ c = ']' ∨ c = '}') (t : Text) : EndsNumber (c :: t) := by
  intro d hd
  obtain rfl : c = d := by simpa using hd
  rcases h with rfl | rfl | rfl <;> decide

theorem ReadAs.length_pos {v w : Json} (h : ReadAs v w) : 0 < (write v).length := by
  obtain ⟨c, t, hc, -⟩ := h.head
  simp [hc]

section

variable {fuel depth : Nat} {v : Json} {r t : Text}

theorem readItems_of_none (h : readValue fuel depth t = none) : readItems (fuel + 1) depth t = none := by
  rw [readItems, h]

theorem readItems_last (h : readValue fuel depth t = some (v, ']' :: r)) :
    readItems (fuel + 1) depth t = some ([v], r) := by
  rw [readItems, h]
  rfl

theorem readItems_comma (h : readValue fuel depth t = some (v, ',' :: r)) :
    readItems (fuel + 1) depth t = (readItems fuel depth r).map fun p => (v :: p.1, p.2) := by
  rw [readItems, h]
  rfl

/-- A key is read back, and then the value after its colon. -/
theorem readMembers_key (k : String) (t : Text) :
    readMembers (fuel + 1) depth (writeString k.toList ++ ':' :: t) =
      (readValue fuel depth t).bind fun p =>
        match skipSpace p.2 with
        | '}' :: r => some ([(k, p.1)], r)
        | ',' :: r => (readMembers fuel depth r).map fun q => ((k, p.1) :: q.1, q.2)
        | _ => none := by
  have hcolon : skipSpace (':' :: t) = ':' :: t := skipSpace_cons rfl t
  rw [writeString, List.cons_append, readMembers, skipSpace_cons rfl, List.append_assoc, List.singleton_append]
  simp only [readString_flatMap_escapeChar, String.ofList_toList, hcolon]
  cases readValue fuel depth t <;> rfl

end

theorem writeMembers_head (m : String × Json) (ms : Members) : ∃ t, writeMembers (m :: ms) = '"' :: t := by
  by_cases hn : ms = []
  · exact ⟨_, by rw [hn, writeMembers, writeString, List.cons_append]⟩
  · exact ⟨_, by rw [writeMembers_cons hn, writeString, List.cons_append]⟩

/-- Items are read back if each of them is. -/
theorem readItems_writeItems {items : List Json} (hne : items ≠ []) (h : ∀ v ∈ items, ReadAs v v)
    (fuel depth : Nat) (t : Text) (hf : 2 * (writeItems items).length ≤ fuel) :
    readItems fuel depth (writeItems items ++ ']' :: t) =
      if nestingOfItems items ≤ depth then some (items, t) else none := by
  induction items generalizing fuel with
  | nil => exact absurd rfl hne
  | cons v vs ih =>
    obtain ⟨hv, hvs⟩ := List.forall_mem_cons.mp h
    have hpos := hv.length_pos
    rw [nestingOfItems]
    by_cases hn : vs = []
    · subst hn
      rw [writeItems] at hf ⊢
      obtain ⟨fuel, rfl⟩ : ∃ n, fuel = n + 1 := ⟨fuel - 1, by omega⟩
      have hread := hv.read fuel depth (endsNumber_cons (.inr (.inl rfl)) t) hf
      rw [nestingOfItems, Nat.max_zero]
      by_cases hd : v.nesting ≤ depth
      · rw [if_pos hd] at hread ⊢
        exact readItems_last hread
      · rw [if_neg hd] at hread ⊢
        exact readItems_of_none hread
    · rw [writeItems_cons hn] at hf ⊢
      rw [List.length_append, List.length_cons] at hf
      obtain ⟨fuel, rfl⟩ : ∃ n, fuel = n + 1 := ⟨fuel - 1, by omega⟩
      have hread := hv.read fuel depth
        (endsNumber_cons (.inl rfl) (writeItems vs ++ ']' :: t)) (by omega)
      have hrest := ih hn hvs fuel (by omega)
      rw [List.append_assoc, List.cons_append]
      by_cases hd : v.nesting ≤ depth
      · rw [if_pos hd] at hread
        rw [readItems_comma hread, hrest]
        simp only [Nat.max_le, hd, true_and]
        split <;> rfl
      · rw [if_neg hd] at hread
        rw [readItems_of_none hread, if_neg (by omega)]

/-- Members are read back if their values are. -/
theorem readMembers_writeMembers {ms : Members} (hne : ms ≠ []) (h : ∀ m ∈ ms, ReadAs m.2 m.2) (fuel depth : Nat)
    (t : Text) (hf : 2 * (writeMembers ms).length ≤ fuel) :
    readMembers fuel depth (writeMembers ms ++ '}' :: t) =
      if nestingOfMembers ms ≤ depth then some (ms, t) else none := by
  induction ms generalizing fuel with
  | nil => exact absurd rfl hne
  | cons m ms ih =>
    obtain ⟨k, v⟩ := m
    obtain ⟨hv, hms⟩ : ReadAs v v ∧ ∀ m ∈ ms, ReadAs m.2 m.2 := List.forall_mem_cons.mp h
    have hpos := hv.length_pos
    rw [nestingOfMembers]
    by_cases hn : ms = []
    · subst hn
      rw [writeMembers] at hf ⊢
      rw [List.length_append, List.length_cons] at hf
      obtain ⟨fuel, rfl⟩ : ∃ n, fuel = n + 1 := ⟨fuel - 1, by omega⟩
      rw [List.append_assoc, List.cons_append, readMembers_key,
        hv.read _ _ (endsNumber_cons (.inr (.inr rfl)) t) (by omega), nestingOfMembers, Nat.max_zero]
      split <;> rfl
    · rw [writeMembers_cons hn] at hf ⊢
      rw [List.length_append, List.length_cons, List.length_append, List.length_cons] at hf
      obtain ⟨fuel, rfl⟩ : ∃ n, fuel = n + 1 := ⟨fuel - 1, by omega⟩
      have hrest := ih hn hms fuel (by omega)
      rw [List.append_assoc, List.cons_append, List.append_assoc, List.cons_append, readMembers_key,
        hv.read _ _ (endsNumber_cons (.inl rfl) _) (by omega)]
      by_cases hd : v.nesting ≤ depth
      · rw [if_pos hd, Option.bind_some, skipSpace_cons rfl]
        simp only [hrest, Nat.max_le, hd, true_and]
        split <;> rfl
      · rw [if_neg hd, if_neg (by omega), Option.bind_none]

theorem readAs_null : ReadAs .null .null where
  head := ⟨_, _, rfl, rfl, by decide⟩
  read fuel depth t _ hf := by
    obtain ⟨fuel, rfl⟩ : ∃ n, fuel = n + 1 := ⟨fuel - 1, by simp [write] at hf; omega⟩
    simp [write, readValue, skipSpace, isSpace, nesting]

theorem readAs_bool (b : Bool) : ReadAs (.bool b) (.bool b) where
  head := by cases b <;> exact ⟨_, _, rfl, rfl, by decide⟩
  read fuel depth t _ hf := by
    cases b <;> obtain ⟨fuel, rfl⟩ : ∃ n, fuel = n + 1 := ⟨fuel - 1, by simp [write] at hf; omega⟩ <;>
      simp [write, readValue, skipSpace, isSpace, nesting]

theorem readAs_str (s : String) : ReadAs (.str s) (.str s) where
  head := ⟨_, _, rfl, rfl, by decide⟩
  read fuel depth t _ hf := by
    obtain ⟨fuel, rfl⟩ : ∃ n, fuel = n + 1 := ⟨fuel - 1, by simp [write, writeString] at hf; omega⟩
    simp [write, writeString, readValue, skipSpace, isSpace, nesting, readString_flatMap_escapeChar]

/-- A value that starts like a number is read as one. -/
theorem readValue_number {c : Char} (hc : c = '-' ∨ c.isDigit = true) (fuel depth : Nat) (t : Text) :
    readValue (fuel + 1) depth (c :: t) = (readNumber (c :: t)).map fun p => (.num p.1, p.2) := by
  have hs : isSpace c = false := hc.elim (fun h => by rw [h]; rfl) isSpace_of_isDigit
  rw [readValue, skipSpace_cons hs]
  split
  all_goals
    first
    | rfl
    | rename_i h
      obtain ⟨rfl, -⟩ := List.cons.inj h
      simp at hc

theorem readAs_int {i : Int} (hi : InRange i) : ReadAs (.num (.int i)) (.num (.int i)) := by
  obtain ⟨c, u, hu⟩ := List.exists_cons_of_ne_nil (writeInt_ne_nil i)
  have hc : c = '-' ∨ c.isDigit = true := mem_writeInt (hu ▸ List.mem_cons_self)
  have hwrite : write (.num (.int i)) = c :: u := hu
  refine ⟨⟨c, u, hwrite, ?_⟩, fun fuel depth t ht hf => ?_⟩
  · rcases hc with rfl | hd
    · exact ⟨rfl, by decide⟩
    · refine ⟨isSpace_of_isDigit hd, ?_⟩
      rintro rfl
      simp at hd
  · obtain ⟨fuel, rfl⟩ : ∃ n, fuel = n + 1 := ⟨fuel - 1, by simp [hwrite] at hf; omega⟩
    rw [hwrite, List.cons_append, readValue_number hc, ← List.cons_append, ← hu, readNumber_writeInt hi ht,
      nesting, if_pos (Nat.zero_le _)]
    · rfl
    all_goals nofun

theorem writeItems_head {v : Json} (h : ReadAs v v) (vs : List Json) :
    ∃ c t, writeItems (v :: vs) = c :: t ∧ isSpace c = false ∧ c ≠ ']' := by
  obtain ⟨c, t, ht, hc⟩ := h.head
  by_cases hn : vs = []
  · exact ⟨c, t, by rw [hn, writeItems, ht], hc⟩
  · exact ⟨c, t ++ ',' :: writeItems vs, by rw [writeItems_cons hn, ht, List.cons_append], hc⟩

theorem readAs_arr {items : List Json} (h : ∀ v ∈ items, ReadAs v v) : ReadAs (.arr items) (.arr items) where
  head := ⟨_, _, rfl, rfl, by decide⟩
  read fuel depth t _ hf := by
    have hwrite : write (.arr items) ++ t = '[' :: (writeItems items ++ ']' :: t) := by simp [write]
    have hlength : (write (.arr items)).length = (writeItems items).length + 2 := by simp [write]
    obtain ⟨fuel, rfl⟩ : ∃ n, fuel = n + 1 := ⟨fuel - 1, by omega⟩
    rw [hwrite, readValue, skipSpace_cons rfl, nesting]
    cases depth with
    | zero => rfl
    | succ depth =>
      simp only [Nat.add_le_add_iff_right]
      cases items with
      | nil => rfl
      | cons v vs =>
        have hread := readItems_writeItems (List.cons_ne_nil v vs) h fuel depth t (by omega)
        obtain ⟨c, u, hu, hs, hc⟩ := writeItems_head (h v List.mem_cons_self) vs
        have hskip : skipSpace (writeItems (v :: vs) ++ ']' :: t) = writeItems (v :: vs) ++ ']' :: t := by
          rw [hu, List.cons_append, skipSpace_cons hs]
        rw [hskip]
        split
        · rename_i heq
          rw [hu] at heq
          exact absurd (List.cons.inj heq).1 hc
        · rw [hread]
          split <;> rfl

theorem readAs_obj {ms : Members} (h : ∀ m ∈ ms, ReadAs m.2 m.2) : ReadAs (.obj ms) (ofMembers ms) where
  head := ⟨_, _, rfl, rfl, by decide⟩
  read fuel depth t _ hf := by
    have hwrite : write (.obj ms) ++ t = '{' :: (writeMembers ms ++ '}' :: t) := by simp [write]
    have hlength : (write (.obj ms)).length = (writeMembers ms).length + 2 := by simp [write]
    obtain ⟨fuel, rfl⟩ : ∃ n, fuel = n + 1 := ⟨fuel - 1, by omega⟩
    rw [hwrite, readValue, skipSpace_cons rfl, nesting]
    cases depth with
    | zero => rfl
    | succ depth =>
      simp only [Nat.add_le_add_iff_right]
      cases ms with
      | nil => rfl
      | cons m ms =>
        have hread := readMembers_writeMembers (List.cons_ne_nil m ms) h fuel depth t (by omega)
        obtain ⟨u, hu⟩ := writeMembers_head m ms
        have hskip : skipSpace (writeMembers (m :: ms) ++ '}' :: t) = writeMembers (m :: ms) ++ '}' :: t := by
          rw [hu, List.cons_append, skipSpace_cons rfl]
        rw [hskip]
        split
        · rename_i heq
          rw [hu] at heq
          exact absurd (List.cons.inj heq).1 (by decide)
        · rw [hread]
          split <;> rfl

/-! ## Members in order -/

theorem Members.insert_of_forall_lt {k : String} (v : Json) {ms : Members} (h : ∀ m ∈ ms, m.1 < k) :
    ms.insert k v = ms ++ [(k, v)] := by
  induction ms with
  | nil => rfl
  | cons m ms ih =>
    obtain ⟨hm, hms⟩ := List.forall_mem_cons.mp h
    have hne : k ≠ m.1 := by
      rintro rfl
      exact String.lt_irrefl _ hm
    rw [Members.insert, if_neg hne, if_neg (String.lt_asymm hm), ih hms, List.cons_append]

theorem Members.foldl_insert_of_sorted {acc ms : Members} (h : Members.Sorted (acc ++ ms)) :
    ms.foldl (fun acc m => acc.insert m.1 m.2) acc = acc ++ ms := by
  induction ms generalizing acc with
  | nil => rw [List.foldl_nil, List.append_nil]
  | cons m ms ih =>
    have hlt : ∀ a ∈ acc, a.1 < m.1 := by
      rw [Members.Sorted, List.map_append, List.pairwise_append] at h
      exact fun a ha => h.2.2 a.1 (List.mem_map_of_mem ha) m.1 List.mem_cons_self
    have happend : acc ++ m :: ms = (acc ++ [m]) ++ ms := List.append_cons acc m ms
    rw [happend] at h ⊢
    rw [List.foldl_cons, Members.insert_of_forall_lt m.2 hlt, ih h]

/-- Members in the order of their keys stay as they are. -/
theorem ofMembers_of_sorted {ms : Members} (h : ms.Sorted) : ofMembers ms = .obj ms :=
  congrArg Json.obj (Members.foldl_insert_of_sorted h)

/-- A value without doubles is read back. -/
theorem readBack {v : Json} (hs : v.Sorted) (hi : v.Integral) : ReadAs v v := by
  induction hs with
  | null => exact readAs_null
  | bool b => exact readAs_bool b
  | num n =>
    cases hi with
    | int h => exact readAs_int h
  | str s => exact readAs_str s
  | arr _ ih =>
    cases hi with
    | arr h => exact readAs_arr fun v hv => ih v hv (h v hv)
  | obj hk _ ih =>
    cases hi with
    | obj h => exact ofMembers_of_sorted hk ▸ readAs_obj fun m hm => ih m hm (h m hm)

/-- A whole text is read back exactly if its nesting is allowed. -/
theorem parseWithin?_write {v w : Json} (h : ReadAs v w) (limit : Nat) :
    parseWithin? limit (write v) = if v.nesting ≤ limit then some w else none := by
  have hread := h.read (2 * (write v).length + 2) limit (t := []) nofun (by omega)
  rw [List.append_nil] at hread
  rw [parseWithin?, hread]
  by_cases hn : v.nesting ≤ limit
  · simp only [if_pos hn]
    rfl
  · simp only [if_neg hn]

/-! ## Nesting and length -/

theorem nestingOfItems_le_length {items : List Json} (h : ∀ v ∈ items, v.nesting ≤ (write v).length) :
    nestingOfItems items ≤ (writeItems items).length := by
  induction items with
  | nil => exact Nat.zero_le _
  | cons v vs ih =>
    obtain ⟨hv, hvs⟩ := List.forall_mem_cons.mp h
    by_cases hn : vs = []
    · rw [hn, writeItems, nestingOfItems, nestingOfItems]
      omega
    · have := ih hvs
      rw [writeItems_cons hn, nestingOfItems, List.length_append, List.length_cons]
      omega

theorem nestingOfMembers_le_length {ms : Members} (h : ∀ m ∈ ms, m.2.nesting ≤ (write m.2).length) :
    nestingOfMembers ms ≤ (writeMembers ms).length := by
  induction ms with
  | nil => exact Nat.zero_le _
  | cons m ms ih =>
    obtain ⟨hm, hms⟩ := List.forall_mem_cons.mp h
    by_cases hn : ms = []
    · rw [hn, writeMembers, nestingOfMembers, nestingOfMembers, List.length_append, List.length_cons]
      omega
    · have := ih hms
      rw [writeMembers_cons hn, nestingOfMembers]
      simp only [List.length_append, List.length_cons]
      omega

/-- A limit as long as the text is none. -/
theorem nesting_le_length {v : Json} (h : v.Integral) : v.nesting ≤ (write v).length := by
  induction h with
  | arr _ ih =>
    have := nestingOfItems_le_length ih
    rw [nesting, write, List.length_cons, List.length_append]
    omega
  | obj _ ih =>
    have := nestingOfMembers_le_length ih
    rw [nesting, write, List.length_cons, List.length_append]
    omega
  | _ => exact Nat.zero_le _

/-! ## The characters of a text -/

/-- The text holds no control character. -/
def NoControl (t : Text) : Prop := ∀ c ∈ t, 0x20 ≤ c.toNat

instance (t : Text) : Decidable (NoControl t) :=
  decidable_of_iff (t.all (fun c => Nat.ble 0x20 c.toNat) = true) (by simp [NoControl, List.all_eq_true])

theorem noControl_append {t u : Text} : NoControl (t ++ u) ↔ NoControl t ∧ NoControl u := List.forall_mem_append

theorem noControl_cons {c : Char} {t : Text} : NoControl (c :: t) ↔ 0x20 ≤ c.toNat ∧ NoControl t :=
  List.forall_mem_cons

theorem noControl_escapeChar (c : Char) : NoControl (escapeChar c) := by
  rcases escapeChar_cases c with ⟨e, -, he, h⟩ | ⟨hc, h⟩ | ⟨hc, -, -, h⟩
  · rw [h, noControl_cons, noControl_cons]
    exact ⟨by decide, he, nofun⟩
  · have hhex : ∀ n < 0x20, NoControl ['\\', 'u', '0', '0', hexDigit (n / 16), hexDigit n] := by decide
    rw [h]
    exact hhex c.toNat hc
  · rw [h, noControl_cons]
    exact ⟨hc, nofun⟩

theorem noControl_writeString (s : Text) : NoControl (writeString s) := by
  have hbody : NoControl (s.flatMap escapeChar) := by
    intro c hc
    obtain ⟨d, -, hd⟩ := List.mem_flatMap.mp hc
    exact noControl_escapeChar d c hd
  exact noControl_cons.mpr ⟨by decide, noControl_append.mpr ⟨hbody, by decide⟩⟩

theorem noControl_writeInt (i : Int) : NoControl (writeInt i) := by
  intro c hc
  rcases mem_writeInt hc with rfl | hd
  · decide
  · have hn : 48 ≤ c.toNat ∧ c.toNat ≤ 57 := by simpa [Char.isDigit, UInt32.le_iff_toNat_le] using hd
    omega

theorem noControl_writeItems {items : List Json} (h : ∀ v ∈ items, NoControl (write v)) :
    NoControl (writeItems items) := by
  induction items with
  | nil => nofun
  | cons v vs ih =>
    obtain ⟨hv, hvs⟩ := List.forall_mem_cons.mp h
    by_cases hn : vs = []
    · rwa [hn, writeItems]
    · rw [writeItems_cons hn, noControl_append, noControl_cons]
      exact ⟨hv, by decide, ih hvs⟩

theorem noControl_writeMembers {ms : Members} (h : ∀ m ∈ ms, NoControl (write m.2)) :
    NoControl (writeMembers ms) := by
  induction ms with
  | nil => nofun
  | cons m ms ih =>
    obtain ⟨hm, hms⟩ := List.forall_mem_cons.mp h
    have hkey := noControl_writeString m.1.toList
    by_cases hn : ms = []
    · rw [hn, writeMembers, noControl_append, noControl_cons]
      exact ⟨hkey, by decide, hm⟩
    · rw [writeMembers_cons hn, noControl_append, noControl_cons, noControl_append, noControl_cons]
      exact ⟨hkey, by decide, hm, by decide, ih hms⟩

/-- No control character is written, so no newline either. -/
theorem noControl_write {v : Json} (h : v.Integral) : NoControl (write v) := by
  induction h with
  | null => decide
  | bool b => cases b <;> decide
  | @int i _ => exact noControl_writeInt i
  | str s => exact noControl_writeString s.toList
  | arr _ ih =>
    rw [write, noControl_cons, noControl_append]
    exact ⟨by decide, noControl_writeItems ih, by decide⟩
  | obj _ ih =>
    rw [write, noControl_cons, noControl_append]
    exact ⟨by decide, noControl_writeMembers ih, by decide⟩

end Refactor.Json
