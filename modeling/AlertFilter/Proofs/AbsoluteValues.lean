import AlertFilter.Proofs.CompiledExpressions
import AlertFilter.Proofs.PatchRuns
import AlertFilter.Store.Memory

/-!
# Absolute values

A range step for a field of the palette knows whether the field offers its absolute value, and an
editor switches it on and off. Of a run of patches the last one that sets the switch decides on it.
The compiler takes the absolute value if the switch is on, but also if the field merely offers it:
there the switch is read by nothing.
-/

namespace AlertFilter

namespace Expression

/-- What an operator is applied to first. -/
def leftOperand? : Expression → Option Expression
  | unary _ e => some e
  | call _ operands => operands.head?
  | named _ operands => (operands.map Prod.snd).head?
  | _ => none

@[simp] lemma leftOperand?_binary (o : Operator) (left right : Expression) :
    (o.binary left right).leftOperand? = some left := rfl

@[simp] lemma leftOperand?_apply (o : Operator) (subject : Expression) :
    (o.apply subject).leftOperand? = some subject := by
  cases o <;> rfl

end Expression

namespace Step

open StepPatch

/-- The field of a step, or its absolute value. -/
def operand (s : Step) (absolute : Bool) : Expression :=
  if absolute then .unary "$abs" (.field s.path) else .field s.path

variable {s : Step} {r : RangeSettings} {o : Operator} {offered : Bool}

lemma operand_injective : Function.Injective s.operand := by
  intro a b h
  cases a <;> cases b <;> simp_all [operand]

lemma reference?_of_range? (h : s.range? = some r) : s.reference? = none := by
  rw [reference?, kind_of_range? h]

lemma subject_of_range? (h : s.range? = some r) :
    s.subject o = s.operand (r.hasAbs || r.useAbs) := by
  rw [subject, kind_of_range? h, operand]

/-- A range step that lies between no two bounds compiles to its operator, applied to the operand
and to the value if it takes one. -/
lemma applied_of_range? {e : Expression} (hr : s.range? = some r) (ho : s.operator = some o)
    (hb : o ≠ .between) (he : s.compileLocal = .ok (some e)) :
    let left := s.operand (r.hasAbs || r.useAbs)
    e = o.apply left ∨ ∃ right, s.value.operand? (s.coercion o) = some right ∧
      e = o.binary left right := by
  intro left
  obtain ⟨o', ho', -, hform⟩ := localForm_of_compileLocal he
  obtain rfl : o' = o := Option.some.inj (ho'.symm.trans ho)
  have hkind := kind_of_range? hr
  have hleft : s.subject o' = left := subject_of_range? hr
  cases hform with
  | bounded _ hbetween => exact absurd hbetween hb
  | @compared right _ hright =>
    have hpattern : s.kind = .evaluation → o' ≠ .matchesPattern := by simp [hkind]
    exact .inr ⟨right, hright, by rw [compare_of_ne hpattern, hleft]⟩
  | computed hcomputed =>
    rw [hkind] at hcomputed
    cases hcomputed
  | alone => exact .inl (by rw [hleft])

/-- The range steps an editor starts with, and whether their field offers its absolute value. -/
inductive RangeStart : Step → Bool → Prop
  | ofField (id : StepId) (field : Field) : RangeStart (.ofField id field) field.hasAbs
  | range (id : StepId) (fieldName : String) : RangeStart (.range id fieldName) false

lemma RangeStart.range?_eq (h : s.RangeStart offered) :
    s.range? = some ⟨offered, false, none⟩ := by
  cases h <;> rfl

/-- Along a run of patches a range step keeps what its field offers, and its switch is as the last
patch that sets it left it, off if there is none. Whatever it compiles to applies the operator to
the absolute value of the field if the field offers it or the switch is on, and to the field as
it is otherwise. So it is the switch that decides exactly if it is on or nothing is offered. -/
theorem RangeStart.absolute_value (h : s.RangeStart offered) (patches : List StepPatch)
    (hr : (s.patchedBy patches).range? = some r)
    (ho : (s.patchedBy patches).operator = some o) (hb : o ≠ .between) :
    let t := s.patchedBy patches
    r.hasAbs = offered ∧ r.useAbs = (lastSet StepPatch.useAbs patches).getD false ∧
    ∀ (source : FilterSource) (e : Expression), source.compileStep t = some e →
      let left := t.operand (offered || r.useAbs)
      (e = o.apply left ∨ ∃ right, t.value.operand? (t.coercion o) = some right ∧
        e = o.binary left right) ∧
      (e.leftOperand? = some (t.operand r.useAbs) ↔ offered = true → r.useAbs = true) := by
  intro t
  have hsettings : r.hasAbs = offered ∧
      r.useAbs = (lastSet StepPatch.useAbs patches).getD false := by
    have hrun := range?_patchedBy s patches
    rw [hr, h.range?_eq] at hrun
    split at hrun
    · cases hrun
    · cases hrun
      exact ⟨rfl, rfl⟩
  refine ⟨hsettings.1, hsettings.2, fun source e he => ?_⟩
  rw [FilterSource.compileStep_eq, FilterSource.node_of_plain (reference?_of_range? hr)] at he
  have happlied := applied_of_range? hr ho hb (Node.expression?_plain he)
  rw [hsettings.1] at happlied
  have hleft : e.leftOperand? = some (t.operand (offered || r.useAbs)) := by
    rcases happlied with rfl | ⟨right, -, rfl⟩ <;> simp [t]
  refine ⟨happlied, ?_⟩
  rw [hleft, Option.some_inj, operand_injective.eq_iff]
  cases offered <;> simp

/-- The Julian date offers no absolute value. Switched on and off again, it is compared as it is. -/
theorem RangeStart.absolute_value_switched_off :
    let five : Literal := .number (.whole 5 (by decide))
    let s := Step.ofField ⟨"a"⟩ Field.julianDate
    let patches : List StepPatch := [.ofUseAbs true, .ofOperator .greater, .ofValue five,
      .ofUseAbs false]
    let t := s.patchedBy patches
    let r : RangeSettings := ⟨false, false, none⟩
    s.RangeStart false ∧ t.range? = some r ∧ t.operator = some .greater ∧
      Operator.greater ≠ .between ∧ r.useAbs = (lastSet StepPatch.useAbs patches).getD false ∧
      ∃ e, FilterStore.empty.source.compileStep t = some e ∧
        e.leftOperand? = some (.field t.path) := by
  intro five s patches t r
  have hstart : s.RangeStart false := .ofField _ _
  have hr : t.range? = some r := rfl
  have hb : Operator.greater ≠ .between := by decide
  have hnamed : Text.isBlank "jd" = false := by decide
  obtain ⟨-, huse, hcompile⟩ := hstart.absolute_value patches hr rfl hb
  have he : FilterStore.empty.source.compileStep t = t.compared .greater :=
    FilterSource.compileStep_of_compares rfl hnamed rfl
  obtain ⟨-, hswitch⟩ := hcompile _ _ he
  exact ⟨hstart, hr, rfl, hb, huse, _, he, hswitch.mpr fun h => nomatch h⟩

/-- The galactic latitude offers its absolute value, so the switch is off in vain: with a sign it
cannot be compared. -/
theorem offered_absolute_value_is_taken :
    let five : Literal := .number (.whole 5 (by decide))
    let s := Step.ofField ⟨"a"⟩ Field.galacticLatitude
    let patches : List StepPatch := [.ofOperator .greater, .ofValue five, .ofUseAbs false]
    let t := s.patchedBy patches
    s.RangeStart true ∧ t.range? = some ⟨true, false, none⟩ ∧ t.operator = some .greater ∧
      lastSet StepPatch.useAbs patches = some false ∧
      FilterStore.empty.source.compileStep t =
        some (.call "$gt" [.unary "$abs" (.field "galactic_latitude"), .literal five]) := by
  intro five s patches t
  have hnamed : Text.isBlank "galactic_latitude" = false := by decide
  have hpath : t.path = "galactic_latitude" := by decide
  refine ⟨.ofField _ _, rfl, rfl, rfl, ?_⟩
  rw [FilterSource.compileStep_of_compares rfl hnamed rfl, ← hpath]
  rfl

end Step

end AlertFilter
