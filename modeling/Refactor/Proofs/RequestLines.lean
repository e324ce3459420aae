import Refactor.Proofs.JsonText
import Refactor.Proofs.Lines
import Refactor.Wire.Request

/-!
# Requests on one stream

Requests follow each other on one stream, each on a line of its own. Whatever their commands and arguments
hold, the stream is cut into the same lines again, and each line is read as the object that it was written
from.

* `Request.object`: a request as the server sees it, with its members in the order of their keys;
* `newline_notMem_text`: the text of a request has no newline;
* `lines_stream`: the stream is cut into the texts of the requests;
* `readAs_object`: what is read from the text of a request.
-/

namespace Refactor

namespace Request

/-- A request whose numbers are integers of 64 bits, and whose arguments have their members in order. -/
structure Exact (r : Request) : Prop where
  seq_lt : r.seq < UInt64.size
  sorted : ∀ v ∈ r.arguments, v.Sorted
  integral : ∀ v ∈ r.arguments, v.Integral

/-- A request as an object; without arguments there is no member for them. -/
def object (r : Request) : Json :=
  .obj ((r.arguments.toList.map fun v => ("arguments", v)) ++
    [("command", .str r.command), ("seq", .nat r.seq), ("type", .str "request")])

/-- The requests as they are sent. -/
def stream (rs : List Request) : Text := rs.flatMap line

variable {r : Request}

theorem inRange_of_lt {n : Nat} (h : n < UInt64.size) : Json.InRange n := by
  constructor
  · omega
  · exact Int.ofNat_lt.mpr h

theorem mem_members {m : String × Json} (h : m ∈ r.members) :
    m.2 = .nat r.seq ∨ (∃ s, m.2 = .str s) ∨ m.2 ∈ r.arguments := by
  simp only [members, List.mem_append, List.mem_cons, List.not_mem_nil, or_false, List.mem_map, Option.mem_toList] at h
  rcases h with (rfl | rfl | rfl) | ⟨v, hv, rfl⟩
  · exact .inl rfl
  · exact .inr (.inl ⟨_, rfl⟩)
  · exact .inr (.inl ⟨_, rfl⟩)
  · exact .inr (.inr hv)

theorem Exact.integral_members (h : r.Exact) : (Json.obj r.members).Integral := by
  refine .obj fun m hm => ?_
  rcases mem_members hm with hm | ⟨s, hm⟩ | hm
  · exact hm ▸ .int (inRange_of_lt h.seq_lt)
  · exact hm ▸ .str s
  · exact h.integral _ hm

theorem newline_notMem_text (h : r.Exact) : '\n' ∉ r.text := fun hn =>
  absurd (Json.noControl_write h.integral_members '\n' hn) (by decide)

theorem ofMembers_members (r : Request) : Json.ofMembers r.members = r.object := by
  cases ha : r.arguments with
  | none =>
    simp only [members, object, ha, Option.toList_none, List.map_nil, List.append_nil, List.nil_append,
      Json.ofMembers, Json.Members.ofList, List.foldl_cons, List.foldl_nil, Json.Members.insert, String.reduceEq,
      String.reduceLT, ↓reduceIte]
  | some v =>
    simp only [members, object, ha, Option.toList_some, List.map_cons, List.map_nil, List.cons_append, List.nil_append,
      Json.ofMembers, Json.Members.ofList, List.foldl_cons, List.foldl_nil, Json.Members.insert, String.reduceEq,
      String.reduceLT, ↓reduceIte]

theorem nesting_members (r : Request) : (Json.obj r.members).nesting = r.object.nesting := by
  cases ha : r.arguments with
  | none => simp [members, object, ha, Json.nesting, Json.nestingOfMembers, Json.nat]
  | some v => simp [members, object, ha, Json.nesting, Json.nestingOfMembers, Json.nat]

/-- The text of a request is read as its object. -/
theorem readAs_object (h : r.Exact) : Json.ReadAs (.obj r.members) r.object := by
  rw [← ofMembers_members]
  refine Json.readAs_obj fun m hm => ?_
  rcases mem_members hm with hm | ⟨s, hm⟩ | hm
  · exact hm ▸ Json.readAs_int (inRange_of_lt h.seq_lt)
  · exact hm ▸ Json.readAs_str s
  · exact Json.readBack (h.sorted _ hm) (h.integral _ hm)

theorem parseWithin?_text (h : r.Exact) (limit : Nat) :
    Json.parseWithin? limit r.text = if r.object.nesting ≤ limit then some r.object else none := by
  rw [← nesting_members]
  exact Json.parseWithin?_write (readAs_object h) limit

theorem nesting_object_le_length (h : r.Exact) : r.object.nesting ≤ r.text.length := by
  rw [← nesting_members]
  exact Json.nesting_le_length h.integral_members

/-! ## The stream -/

theorem stream_cons (r : Request) (rs : List Request) : stream (r :: rs) = r.text ++ '\n' :: stream rs := by
  rw [stream, List.flatMap_cons, line, List.append_assoc]
  rfl

/-- Newlines end the lines of requests and stand nowhere else. -/
theorem count_newline_stream {rs : List Request} (h : ∀ r ∈ rs, r.Exact) : (stream rs).count '\n' = rs.length := by
  induction rs with
  | nil => rfl
  | cons r rs ih =>
    obtain ⟨hr, hrs⟩ := List.forall_mem_cons.mp h
    rw [stream_cons, List.count_append, List.count_eq_zero.mpr (newline_notMem_text hr), List.count_cons_self, ih hrs,
      List.length_cons, Nat.zero_add]

theorem lines_stream {rs : List Request} (h : ∀ r ∈ rs, r.Exact) :
    Text.lines (stream rs) = rs.map text ++ [[]] := by
  induction rs with
  | nil => rfl
  | cons r rs ih =>
    obtain ⟨hr, hrs⟩ := List.forall_mem_cons.mp h
    rw [stream_cons, Text.lines_append_newline, Text.lines_of_notMem (newline_notMem_text hr), ih hrs]
    rfl

end Request

/-- Requests are told apart whatever they hold. Their stream has one newline for each, at the end of its line, and is
cut there into the texts of the requests. Each text is read as the object of its request by a reader without a limit on
nesting, and by one with a limit exactly if the nesting is within it. -/
theorem requests_told_apart {rs : List Request} (h : ∀ r ∈ rs, r.Exact) :
    (Request.stream rs).count '\n' = rs.length ∧
    Text.lines (Request.stream rs) = rs.map Request.text ++ [[]] ∧
    ∀ r ∈ rs, r.line.getLast? = some '\n' ∧
      Json.parseWithin? r.text.length r.text = some r.object ∧
      (∀ limit, Json.parseWithin? limit r.text = if r.object.nesting ≤ limit then some r.object else none) ∧
      r.object.field? "arguments" = r.arguments := by
  refine ⟨Request.count_newline_stream h, Request.lines_stream h, fun r hr => ?_⟩
  have hparse := Request.parseWithin?_text (h r hr)
  refine ⟨by simp [Request.line], ?_, hparse, ?_⟩
  · rw [hparse, if_pos (Request.nesting_object_le_length (h r hr))]
  · cases ha : r.arguments <;> simp [Request.object, Json.field?, ha, List.lookup_cons]

/-- A command with a quote and a newline, with arguments that hold a newline, a control character and a character
outside the basic plane; then null for arguments, and none. -/
theorem requests_told_apart_escaped :
    let arguments : Json := .obj [("content", .arr [.str "a\n\x01\\😀", .num (.int (-1))]), ("file", .null)]
    let rs : List Request :=
      [⟨1, "say \"\n\"", some arguments⟩, ⟨2, "null", some .null⟩, ⟨18446744073709551615, "none", none⟩]
    (∀ r ∈ rs, r.Exact) ∧ (Request.stream rs).count '\n' = 3 ∧
      (rs.map fun r => Json.parseWithin? r.text.length r.text) = rs.map fun r => some r.object := by
  intro arguments rs
  have hs : arguments.Sorted := by
    have hkeys : Json.Members.Sorted [("content", .arr [.str "a\n\x01\\😀", .num (.int (-1))]), ("file", .null)] :=
      List.pairwise_pair.mpr (by decide)
    refine .obj hkeys (List.forall_mem_cons.mpr ⟨.arr ?_, by simp [Json.Sorted.null]⟩)
    simp [Json.Sorted.str, Json.Sorted.num]
  have hi : arguments.Integral := by
    have hnum : Json.InRange (-1) := ⟨by decide, by decide⟩
    refine .obj (List.forall_mem_cons.mpr ⟨.arr ?_, by simp [Json.Integral.null]⟩)
    simp [Json.Integral.str, Json.Integral.int hnum]
  have h : ∀ r ∈ rs, r.Exact := by
    simp only [rs, List.forall_mem_cons, List.not_mem_nil, false_implies, implies_true, and_true]
    refine ⟨⟨by decide, ?_, ?_⟩, ⟨by decide, ?_, ?_⟩, ⟨by decide, ?_, ?_⟩⟩
    · simpa using hs
    · simpa using hi
    · simp [Json.Sorted.null]
    · simp [Json.Integral.null]
    · simp
    · simp
  obtain ⟨hcount, -, hread⟩ := requests_told_apart h
  exact ⟨h, hcount, List.map_congr_left fun r hr => (hread r hr).2.1⟩

end Refactor
