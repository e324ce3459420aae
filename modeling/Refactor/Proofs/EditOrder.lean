import Refactor.Proofs.Splice

/-!
# The order of sorted edits

Sorting looks at the spans of edits and, where two edits have the same span, at
the order in which they were given. What it leaves is the only list of these
edits that goes from the last span to the first and turns edits with one span
around, so edits with different spans may be given in any order.

* `TextEdit.spanLE_iff`, `TextEdit.rank_eq_iff`: the number that edits are sorted by
  orders them by start and end, and is the same only for the same span;
* `eq_of_ofRank_eq`: a list in descending order is known by what it has of each
  rank;
* `SortedFrom`, `SortedFrom.eq`: the outcome of sorting, and that there is only one;
* `sortEdits_canonical`: all of it for `sortEdits`, and what follows for lines and logs.
-/

namespace Refactor

namespace TextEdit

/-! ## Spans -/

/-- Spans in the order of start line, start offset, end line and end offset. -/
def SpanLE (a b : TextEdit) : Prop :=
  a.startLine.toNat < b.startLine.toNat ∨ a.startLine = b.startLine ∧
    (a.startOffset.toNat < b.startOffset.toNat ∨ a.startOffset = b.startOffset ∧
      (a.endLine.toNat < b.endLine.toNat ∨ a.endLine = b.endLine ∧ a.endOffset.toNat ≤ b.endOffset.toNat))

instance (a b : TextEdit) : Decidable (SpanLE a b) :=
  inferInstanceAs (Decidable (_ ∨ _ ∧ (_ ∨ _ ∧ (_ ∨ _ ∧ _))))

/-- An edit from one location to another. -/
def hasSpan (p q : Location) (e : TextEdit) : Bool := decide (e.start = p ∧ e.stop = q)

theorem spanLE_iff {a b : TextEdit} : a.SpanLE b ↔ a.rank ≤ b.rank := by
  rw [rank_le_iff]
  simp only [SpanLE, Location.le_def, start, stop, Location.mk.injEq, ← UInt32.toNat_inj]
  omega

/-- Edits have the same rank exactly if they have the same span. -/
theorem rank_eq_iff {a b : TextEdit} : a.rank = b.rank ↔ a.start = b.start ∧ a.stop = b.stop := by
  constructor
  · intro h
    obtain ⟨hs, he⟩ := rank_le_iff.mp (Nat.le_of_eq h)
    obtain ⟨hs', he'⟩ := rank_le_iff.mp (Nat.le_of_eq h.symm)
    have hstart := Location.le_antisymm hs hs'
    exact ⟨hstart, Location.le_antisymm (he hstart) (he' hstart.symm)⟩
  · rintro ⟨hs, he⟩
    refine Nat.le_antisymm (rank_le_iff.mpr ?_) (rank_le_iff.mpr ?_) <;> rw [hs, he]
    · exact ⟨Location.le_def.mpr (by omega), fun _ => Location.le_def.mpr (by omega)⟩
    · exact ⟨Location.le_def.mpr (by omega), fun _ => Location.le_def.mpr (by omega)⟩

theorem hasSpan_iff {a b : TextEdit} : b.hasSpan a.start a.stop = true ↔ b.rank = a.rank := by
  rw [hasSpan, decide_eq_true_eq, rank_eq_iff]

end TextEdit

/-! ## Descending lists -/

/-- The edits of one rank. -/
def ofRank (n : Nat) (edits : List TextEdit) : List TextEdit := edits.filter fun e => e.rank == n

theorem mem_ofRank {n : Nat} {edits : List TextEdit} {e : TextEdit} : e ∈ ofRank n edits ↔ e ∈ edits ∧ e.rank = n := by
  rw [ofRank, List.mem_filter, beq_iff_eq]

/-- What a list has of each rank is known from what it has of each span. -/
theorem ofRank_eq_of_hasSpan {l l' : List TextEdit}
    (h : ∀ p q, l.filter (TextEdit.hasSpan p q) = l'.filter (TextEdit.hasSpan p q)) (n : Nat) :
    ofRank n l = ofRank n l' := by
  have hspan : ∀ (a : TextEdit) (es : List TextEdit), es.filter (TextEdit.hasSpan a.start a.stop) = ofRank a.rank es :=
    fun a es => List.filter_congr fun b _ => Bool.eq_iff_iff.mpr (by rw [TextEdit.hasSpan_iff, beq_iff_eq])
  by_cases hn : ∃ a ∈ l ++ l', a.rank = n
  · obtain ⟨a, -, rfl⟩ := hn
    rw [← hspan, ← hspan, h]
  · have hnil : ∀ es ⊆ l ++ l', ofRank n es = [] := fun es hes =>
      List.eq_nil_iff_forall_not_mem.mpr fun a ha => hn ⟨a, hes (mem_ofRank.mp ha).1, (mem_ofRank.mp ha).2⟩
    rw [hnil l (List.subset_append_left _ _), hnil l' (List.subset_append_right _ _)]

theorem mem_of_ofRank_eq {l l' : List TextEdit} (h : ∀ n, ofRank n l = ofRank n l') {e : TextEdit} (he : e ∈ l) :
    e ∈ l' := by
  have hmem : e ∈ ofRank e.rank l := mem_ofRank.mpr ⟨he, rfl⟩
  rw [h] at hmem
  exact (mem_ofRank.mp hmem).1

theorem rank_le_of_mem {a e : TextEdit} {l : List TextEdit} (h : (a :: l).Pairwise fun a b => b.rank ≤ a.rank)
    (he : e ∈ a :: l) : e.rank ≤ a.rank := by
  rcases List.mem_cons.mp he with rfl | he
  · exact Nat.le_refl _
  · exact (List.pairwise_cons.mp h).1 e he

/-- A list in descending order is known by what it has of each rank. -/
theorem eq_of_ofRank_eq {l l' : List TextEdit} (h : l.Pairwise fun a b => b.rank ≤ a.rank)
    (h' : l'.Pairwise fun a b => b.rank ≤ a.rank) (he : ∀ n, ofRank n l = ofRank n l') : l = l' := by
  induction l generalizing l' with
  | nil =>
    refine (List.eq_nil_iff_forall_not_mem.mpr fun e hmem => ?_).symm
    exact List.not_mem_nil (mem_of_ofRank_eq (fun n => (he n).symm) hmem)
  | cons a l ih =>
    cases l' with
    | nil => exact absurd (mem_of_ofRank_eq he List.mem_cons_self) List.not_mem_nil
    | cons b l' =>
      -- Both lists start with an edit of the highest rank, so with the first one of this rank.
      have hba : b.rank ≤ a.rank := rank_le_of_mem h (mem_of_ofRank_eq (fun n => (he n).symm) List.mem_cons_self)
      have hab : a.rank ≤ b.rank := rank_le_of_mem h' (mem_of_ofRank_eq he List.mem_cons_self)
      have hfirst := he a.rank
      simp only [ofRank, List.filter_cons, Nat.le_antisymm hba hab, beq_self_eq_true, if_true] at hfirst
      obtain ⟨rfl, -⟩ := List.cons.inj hfirst
      have htail : ∀ n, ofRank n l = ofRank n l' := by
        intro n
        have hn := he n
        simp only [ofRank, List.filter_cons] at hn
        split at hn
        · exact (List.cons.inj hn).2
        · exact hn
      rw [ih (List.pairwise_cons.mp h).2 (List.pairwise_cons.mp h').2 htail]

/-! ## Sorting -/

/-- `sorted` has the given edits from the last span to the first, those with one span in reverse. -/
structure SortedFrom (edits sorted : List TextEdit) : Prop where
  perm : sorted.Perm edits
  descending : sorted.Pairwise fun a b => b.SpanLE a
  reversed : ∀ p q, sorted.filter (TextEdit.hasSpan p q) = (edits.filter (TextEdit.hasSpan p q)).reverse

/-- The same edits in another order, but for edits with one span. -/
structure TextEdit.Rearranged (edits edits' : List TextEdit) : Prop where
  perm : edits'.Perm edits
  order : ∀ p q, edits'.filter (hasSpan p q) = edits.filter (hasSpan p q)

theorem sortedFrom_sortEdits (edits : List TextEdit) : SortedFrom edits (sortEdits edits) where
  perm := sortEdits_perm edits
  descending := (pairwise_sortEdits edits).imp TextEdit.spanLE_iff.mpr
  reversed p q := by
    refine filter_sortEdits edits fun a b ha hb => TextEdit.rank_eq_iff.mpr ?_
    simp only [TextEdit.hasSpan, decide_eq_true_eq] at ha hb
    rw [ha.1, ha.2, hb.1, hb.2]
    exact ⟨rfl, rfl⟩

/-- Edits are sorted in one way only, however different spans were ordered before. -/
theorem SortedFrom.eq {edits edits' sorted sorted' : List TextEdit} (h : SortedFrom edits sorted)
    (h' : SortedFrom edits' sorted')
    (he : ∀ p q, edits'.filter (TextEdit.hasSpan p q) = edits.filter (TextEdit.hasSpan p q)) : sorted' = sorted := by
  refine eq_of_ofRank_eq (h'.descending.imp TextEdit.spanLE_iff.mp) (h.descending.imp TextEdit.spanLE_iff.mp) ?_
  refine ofRank_eq_of_hasSpan fun p q => ?_
  rw [h'.reversed, h.reversed, he]

/-- Sorting is canonical, for edits that overlap or do not fit as well. -/
theorem sortEdits_canonical (edits : List TextEdit) :
    SortedFrom edits (sortEdits edits) ∧ (∀ sorted, SortedFrom edits sorted → sorted = sortEdits edits) ∧
      ∀ edits', TextEdit.Rearranged edits edits' →
        sortEdits edits' = sortEdits edits ∧
          (∀ lines, applyEdits lines (sortEdits edits') = applyEdits lines (sortEdits edits)) ∧
            ∀ lines path, changeRecord lines (sortEdits edits') path = changeRecord lines (sortEdits edits) path := by
  have hsorted := sortedFrom_sortEdits edits
  refine ⟨hsorted, fun sorted h => hsorted.eq h fun _ _ => rfl, fun edits' h => ?_⟩
  have heq := hsorted.eq (sortedFrom_sortEdits edits') h.order
  exact ⟨heq, fun lines => by rw [heq], fun lines path => by rw [heq]⟩

/-- Two edits with one span around a point inside it and an edit that ends before it starts. -/
theorem sortEdits_canonical_tie :
    let a : TextEdit := ⟨1, 2, 1, 4, ['X']⟩
    let b : TextEdit := ⟨9, 1, 3, 7, ['Y']⟩
    let c : TextEdit := ⟨1, 2, 1, 4, ['Z']⟩
    let d : TextEdit := ⟨1, 3, 1, 3, []⟩
    (SortedFrom [a, b, c, d] [b, d, c, a] ∧ TextEdit.Rearranged [a, b, c, d] [d, a, c, b]) ∧
      sortEdits [a, b, c, d] = [b, d, c, a] ∧ sortEdits [d, a, c, b] = [b, d, c, a] := by
  intro a b c d
  -- A filter by span keeps the two edits of one span, one of the others, or none.
  have hspan : ∀ p q, a.hasSpan p q = c.hasSpan p q ∧ (b.hasSpan p q = true → c.hasSpan p q = false) ∧
      (d.hasSpan p q = true → b.hasSpan p q = false ∧ c.hasSpan p q = false) := by
    intro p q
    refine ⟨rfl, fun hb => ?_, fun hd => ?_⟩
    · obtain ⟨rfl, rfl⟩ := of_decide_eq_true hb
      decide
    · obtain ⟨rfl, rfl⟩ := of_decide_eq_true hd
      decide
  have hsorted : SortedFrom [a, b, c, d] [b, d, c, a] := by
    refine ⟨by decide, by decide, fun p q => ?_⟩
    obtain ⟨ha, hb, hd⟩ := hspan p q
    simp only [List.filter_cons, List.filter_nil, ha]
    cases hb' : b.hasSpan p q <;> cases hc' : c.hasSpan p q <;> cases hd' : d.hasSpan p q <;> simp_all
  have hrearranged : TextEdit.Rearranged [a, b, c, d] [d, a, c, b] := by
    refine ⟨by decide, fun p q => ?_⟩
    obtain ⟨ha, hb, hd⟩ := hspan p q
    simp only [List.filter_cons, List.filter_nil, ha]
    cases hb' : b.hasSpan p q <;> cases hc' : c.hasSpan p q <;> cases hd' : d.hasSpan p q <;> simp_all
  obtain ⟨-, hunique, horder⟩ := sortEdits_canonical [a, b, c, d]
  have heq := (hunique _ hsorted).symm
  exact ⟨⟨hsorted, hrearranged⟩, heq, (horder _ hrearranged).1.trans heq⟩

end Refactor
