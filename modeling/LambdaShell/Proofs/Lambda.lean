/-
What a lambda went through to be compiled.

A text is trimmed, scanned for forbidden texts, searched for an arrow, parsed and checked,
and any of these steps can turn it down.  What compiles has passed all of them, so whatever
is known of one of the steps is known of every lambda.
-/
import LambdaShell.Lambda

namespace LambdaShell.Lambda

variable {source : List Char} {goal : Goal} {lambda : Lambda}

/-- The lambda comes from that text, which has passed every step. -/
structure ComesFrom (lambda : Lambda) (source : List Char) (goal : Goal) : Prop where
  /-- There is no forbidden text in it. -/
  scanned : findForbidden (Text.trim source) = none
  arrow : Eval.occursIn ['=', '>'] (Text.trim source) = true
  parsed : parseLambda (Text.trim source) = .ok lambda.expr
  checked : lambda.expr.issues goal = []
  source : lambda.source = String.ofList (Text.trim source)
  goal : lambda.goal = goal

theorem comesFrom_of_compile (h : compile source goal = .ok lambda) :
    lambda.ComesFrom source goal := by
  unfold compile compileTrimmed at h
  split at h
  · cases h
  rename_i hscanned
  split at h
  · cases h
  split at h
  · cases h
  rename_i harrow
  rw [Bool.not_eq_true', Bool.not_eq_false] at harrow
  split at h
  · cases h
  rename_i expr hparsed
  unfold ofExpr at h
  split at h
  · cases h
    exact ⟨hscanned, harrow, hparsed, ‹_›, rfl, rfl⟩
  · cases h

end LambdaShell.Lambda
