import Mathlib.Data.List.Basic
import Mathlib.Tactic

/-!
# First-match decisions

A list of rules decides about an input by the first rule that does not pass it on. When all of
them do, a last rule decides, and that one cannot pass anything on. A loop over the rules
computes this decision when it skips the rules that pass and stops at the first that does not
(`loop_firstMatch`).
-/

/-- What a rule says about an input. -/
inductive Verdict where
  | pass
  | accept
  | refuse
  | fail
deriving DecidableEq

/-- A decision, with the rule that took it. -/
inductive Decision (ρ : Type) where
  | take (rule : ρ)
  | refuse (rule : ρ)
  | fail (rule : ρ)

section FirstMatch

variable {ρ : Type}

/-- The decision of a rule that is not followed by another. -/
def Verdict.decision (verdict : Verdict) (rule : ρ) : Decision ρ :=
  match verdict with
  | .accept => .take rule
  | .refuse | .pass => .refuse rule
  | .fail => .fail rule

/-- The first rule that does not pass decides, or the last one. -/
def firstMatch (verdict : ρ → Verdict) (rules : List ρ) (lastVerdict : Verdict) (last : ρ) :
    Decision ρ :=
  match rules.find? fun rule => verdict rule ≠ .pass with
  | some rule => (verdict rule).decision rule
  | none => lastVerdict.decision last

variable {verdict : ρ → Verdict} {lastVerdict : Verdict} {last : ρ}

theorem firstMatch_cons_of_pass {rule : ρ} (h : verdict rule = .pass) (rules : List ρ) :
    firstMatch verdict (rule :: rules) lastVerdict last =
      firstMatch verdict rules lastVerdict last := by
  rw [firstMatch, List.find?_cons_of_neg (by simp [h])]
  rfl

theorem firstMatch_cons_of_ne_pass {rule : ρ} (h : verdict rule ≠ .pass) (rules : List ρ) :
    firstMatch verdict (rule :: rules) lastVerdict last = (verdict rule).decision rule := by
  rw [firstMatch, List.find?_cons_of_pos (by simp [h])]

/-- A loop that goes over the rules one by one computes the decision. -/
theorem loop_firstMatch {γ : Type} {f : List ρ → γ} {P : γ → Decision ρ → Prop}
    (hnil : P (f []) (lastVerdict.decision last))
    (hpass : ∀ rule rules, verdict rule = .pass → f (rule :: rules) = f rules)
    (hstop : ∀ rule rules, verdict rule ≠ .pass →
      P (f (rule :: rules)) ((verdict rule).decision rule)) (rules : List ρ) :
    P (f rules) (firstMatch verdict rules lastVerdict last) := by
  induction rules with
  | nil => exact hnil
  | cons rule rules ih =>
    by_cases h : verdict rule = .pass
    · rw [hpass rule rules h, firstMatch_cons_of_pass h]
      exact ih
    · rw [firstMatch_cons_of_ne_pass h]
      exact hstop rule rules h

theorem Verdict.decision_eq_take {v : Verdict} {rule rule' : ρ} :
    v.decision rule = .take rule' ↔ v = .accept ∧ rule = rule' := by
  cases v <;> simp [Verdict.decision]

/-- Only a rule that accepts takes anything. -/
theorem firstMatch_eq_take {rules : List ρ} {rule : ρ}
    (h : firstMatch verdict rules lastVerdict last = .take rule) :
    (rule ∈ rules ∧ verdict rule = .accept) ∨ (rule = last ∧ lastVerdict = .accept) := by
  unfold firstMatch at h
  split at h
  · rename_i first hfirst
    obtain ⟨haccept, rfl⟩ := Verdict.decision_eq_take.mp h
    exact Or.inl ⟨List.mem_of_find?_eq_some hfirst, haccept⟩
  · obtain ⟨haccept, rfl⟩ := Verdict.decision_eq_take.mp h
    exact Or.inr ⟨rfl, haccept⟩

end FirstMatch
