import AlertFilter.Proofs.ExpressionParts
import AlertFilter.Proofs.QueryJson

/-!
# Expressions as they are sent and as they are shown

An expression is sent as it stands and shown by its JSON value, where named operands are sorted and
of one name the last counts. What is sent is read as that value by everyone who reads JSON; letter
by letter the two are the same just if no sorting is needed, and none is for what the compiler
returns.
-/

namespace AlertFilter

namespace Expression

open Json

/-- Named operands stand in ascending order everywhere, and each name once. -/
def IsOrdered (e : Expression) : Prop :=
  ∀ symbol operands, named symbol operands ∈ e.subexpressions → operands.Pairwise (·.1 < ·.1)

lemma isOrdered_field (path : String) : (field path).IsOrdered := by
  simp [IsOrdered]

lemma isOrdered_literal (l : Literal) : (literal l).IsOrdered := by
  simp [IsOrdered]

lemma isOrdered_unary_iff {symbol : String} {e : Expression} :
    (unary symbol e).IsOrdered ↔ e.IsOrdered := by
  simp [IsOrdered]

lemma isOrdered_call_iff {symbol : String} {es : List Expression} :
    (call symbol es).IsOrdered ↔ ∀ e ∈ es, e.IsOrdered := by
  simp only [IsOrdered, mem_subexpressions_call, reduceCtorEq, false_or]
  constructor
  · intro h e he symbol operands hmem
    exact h symbol operands ⟨e, he, hmem⟩
  · rintro h symbol operands ⟨e, he, hmem⟩
    exact h e he symbol operands hmem

lemma isOrdered_named_iff {symbol : String} {operands : List (String × Expression)} :
    (named symbol operands).IsOrdered ↔
      operands.Pairwise (·.1 < ·.1) ∧ ∀ m ∈ operands, m.2.IsOrdered := by
  simp only [IsOrdered, mem_subexpressions_named, named.injEq]
  constructor
  · intro h
    refine ⟨h symbol operands (.inl ⟨rfl, rfl⟩), fun m hm symbol' operands' hmem => ?_⟩
    exact h symbol' operands' (.inr ⟨m, hm, hmem⟩)
  · rintro ⟨hsorted, hparts⟩ symbol' operands' (⟨-, rfl⟩ | ⟨m, hm, hmem⟩)
    · exact hsorted
    · exact hparts m hm symbol' operands' hmem

lemma sorted_toJsonNamed (operands : List (String × Expression)) :
    Sorted (toJsonNamed [] operands) := by
  rw [← foldl_canonical_written]
  exact sorted_sortMembers _

/-- Members are written out as they are shown if they are sorted and their values are. -/
lemma writtenNamed_eq_iff {operands : List (String × Expression)} :
    writtenNamed operands = toJsonNamed [] operands ↔
      operands.Pairwise (·.1 < ·.1) ∧ ∀ m ∈ operands, m.2.written = m.2.toJson := by
  have hvalues : operands.map (Prod.map id written) = operands.map (Prod.map id toJson) ↔
      ∀ m ∈ operands, m.2.written = m.2.toJson := by
    rw [List.map_inj_left]
    simp only [Prod.map, Prod.mk.injEq, true_and]
  rw [writtenNamed_eq_map]
  constructor
  · intro h
    have hsorted : Sorted (operands.map (Prod.map id written)) := h ▸ sorted_toJsonNamed operands
    have hnames : operands.Pairwise (·.1 < ·.1) := by
      rwa [Sorted, List.pairwise_map] at hsorted
    rw [toJsonNamed_of_sorted hnames] at h
    exact ⟨hnames, hvalues.mp h⟩
  · rintro ⟨hnames, h⟩
    rw [toJsonNamed_of_sorted hnames]
    exact hvalues.mpr h

mutual

/-- An expression is written out as it is shown exactly if its named operands are in order. -/
theorem written_eq_iff : ∀ e : Expression, e.written = e.toJson ↔ e.IsOrdered
  | field path => iff_of_true rfl (isOrdered_field path)
  | literal l => iff_of_true rfl (isOrdered_literal l)
  | unary symbol operand => by
    rw [isOrdered_unary_iff, ← written_eq_iff operand, written, toJson]
    simp
  | call symbol operands => by
    rw [isOrdered_call_iff, ← writtenItems_eq_iff operands, written, toJson]
    simp
  | named symbol operands => by
    rw [isOrdered_named_iff, ← values_eq_iff operands, ← writtenNamed_eq_iff, written, toJson]
    simp

lemma writtenItems_eq_iff : ∀ es : List Expression,
    writtenItems es = toJsonItems es ↔ ∀ e ∈ es, e.IsOrdered
  | [] => by simp [writtenItems, toJsonItems]
  | e :: rest => by
    rw [List.forall_mem_cons, ← written_eq_iff e, ← writtenItems_eq_iff rest, writtenItems,
      toJsonItems, List.cons.injEq]

lemma values_eq_iff : ∀ operands : List (String × Expression),
    (∀ m ∈ operands, m.2.written = m.2.toJson) ↔ ∀ m ∈ operands, m.2.IsOrdered
  | [] => by simp
  | (_, e) :: rest => by
    rw [List.forall_mem_cons, List.forall_mem_cons, written_eq_iff e, values_eq_iff rest]

end

lemma Regular.isOrdered {e : Expression} (h : e.Regular) : e.IsOrdered :=
  (written_eq_iff e).mp h.written_eq

/-- What is sent has the value that is shown. It is that value member for member if named operands
are in order, and only then; so all that the compiler returns is sent letter by letter as it is
shown. -/
theorem sent_as_shown :
    (∀ e : Expression, canonical e.written = e.toJson ∧ (e.written = e.toJson ↔ e.IsOrdered)) ∧
      ∀ e : Expression, Compiled e → e.text = e.display := by
  refine ⟨fun e => ⟨canonical_written e, written_eq_iff e⟩, fun e h => ?_⟩
  rw [text, display, (written_eq_iff e).mpr h.regular.isOrdered]

/-- A pattern is the one thing that the compiler writes with named operands. -/
theorem sent_as_shown_pattern :
    let s := ((Step.new ⟨"a"⟩ "objectId" .evaluation).withOperator .matchesPattern).withLiteral
      (.text "^ZTF")
    let e : Expression :=
      .named "$regexMatch" [("input", .field s.path), ("regex", .literal (.text "^ZTF"))]
    FilterStore.empty.source.compileStep s = some e ∧ Compiled e ∧ e.text = e.display ∧
      e.display =
        "\x7b\"$regexMatch\":\x7b\"input\":\"$objectId\",\"regex\":\"^ZTF\"\x7d\x7d" := by
  intro s e
  have hname : Text.isBlank "objectId" = false := by decide
  have hstep : FilterStore.empty.source.compileStep s = some e := by
    rw [FilterSource.compileStep_of_compares (o := .matchesPattern) rfl hname rfl]
    rfl
  have hcompiled : Compiled e := .step hstep
  exact ⟨hstep, hcompiled, sent_as_shown.2 e hcompiled, by cbv⟩

/-- Operands that are not in order are sent as they stand. -/
example :
    let e : Expression := .named "$f" [("b", .field "x"), ("a", .field "y"), ("b", .field "z")]
    e.text = "\x7b\"$f\":\x7b\"b\":\"$x\",\"a\":\"$y\",\"b\":\"$z\"\x7d\x7d" ∧
      e.display = "\x7b\"$f\":\x7b\"a\":\"$y\",\"b\":\"$z\"\x7d\x7d" := by
  cbv

end Expression

end AlertFilter
