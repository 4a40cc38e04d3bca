/-
Slices of a text that are given by byte offsets.

A text is a list of characters of one to four bytes.  `cutAtByte?` cuts it at a byte offset
and answers `none` where there is nothing to cut: inside a character or behind the end.  The
three forms of a slice are made of it, so that a refused slice is one that can not be taken.

A cut is possible exactly at the lengths of the texts that the text starts with, so whoever
knows what stands before an offset knows that it can be cut there.
-/
import Mathlib
import LambdaShell.Expr.Token
import LambdaShell.Proofs.Text.SmallLetters

namespace LambdaShell.Text

variable {us vs cs : List Char} {n i : Nat}

/-! ### Lengths -/

@[simp] theorem byteLength_nil : byteLength [] = 0 := rfl

@[simp] theorem byteLength_cons (c : Char) (cs : List Char) :
    byteLength (c :: cs) = c.utf8Size + byteLength cs := List.sum_cons

@[simp] theorem byteLength_append (us vs : List Char) :
    byteLength (us ++ vs) = byteLength us + byteLength vs := by
  induction us with
  | nil => simp
  | cons c us ih => simp [ih, Nat.add_assoc]

/-- Characters of ASCII are one byte long. -/
theorem byteLength_of_ascii (h : IsAscii us) : byteLength us = us.length := by
  induction us with
  | nil => rfl
  | cons c us ih =>
      obtain ⟨hc, hus⟩ := List.forall_mem_cons.mp h
      have hone : c.utf8Size = 1 := by
        rw [Char.utf8Size_eq_one_iff, UInt32.le_iff_toNat_le]
        exact Nat.le_of_lt_succ hc
      rw [byteLength_cons, ih hus, hone, List.length_cons, Nat.add_comm]

/-! ### Cuts -/

/-- The text before a byte offset and the text from there on. -/
def cutAtByte? : Nat → List Char → Option (List Char × List Char)
  | 0, cs => some ([], cs)
  | _ + 1, [] => none
  | n + 1, c :: cs =>
    if c.utf8Size ≤ n + 1 then
      (cutAtByte? (n + 1 - c.utf8Size) cs).map fun p => (c :: p.1, p.2)
    else none

/-- **A text can be cut exactly behind the texts that it starts with.** -/
theorem cutAtByte?_eq_some_iff :
    cutAtByte? n cs = some (us, vs) ↔ cs = us ++ vs ∧ byteLength us = n := by
  induction cs generalizing n us with
  | nil =>
      cases n with
      | zero => cases us <;> simp [cutAtByte?, eq_comm]
      | succ n => cases us <;> simp [cutAtByte?]
  | cons c cs ih =>
      have hc : 0 < c.utf8Size := c.utf8Size_pos
      cases n with
      | zero =>
          cases us with
          | nil => simp [cutAtByte?]
          | cons d us =>
              have hd : 0 < d.utf8Size := d.utf8Size_pos
              simp [cutAtByte?]
              omega
      | succ n =>
          unfold cutAtByte?
          constructor
          · intro h
            split at h
            · rename_i hle
              simp only [Option.map_eq_some_iff, Prod.exists, Prod.mk.injEq] at h
              obtain ⟨us, vs, hcut, rfl, rfl⟩ := h
              obtain ⟨rfl, hlength⟩ := ih.mp hcut
              exact ⟨rfl, by rw [byteLength_cons]; omega⟩
            · cases h
          · rintro ⟨hsplit, hlength⟩
            cases us with
            | nil => cases hlength
            | cons d us =>
                obtain ⟨rfl, rfl⟩ := List.cons.inj hsplit
                rw [byteLength_cons] at hlength
                rw [if_pos (by omega), ih.mpr ⟨rfl, by omega⟩]
                rfl

theorem cutAtByte?_append (us vs : List Char) :
    cutAtByte? (byteLength us) (us ++ vs) = some (us, vs) :=
  cutAtByte?_eq_some_iff.mpr ⟨rfl, rfl⟩

/-! ### Slices -/

/-- The text up to a byte offset. -/
def prefix? (stop : Nat) (cs : List Char) : Option (List Char) := (cutAtByte? stop cs).map (·.1)

/-- The text from a byte offset on. -/
def suffix? (start : Nat) (cs : List Char) : Option (List Char) := (cutAtByte? start cs).map (·.2)

/-- The text between two byte offsets. -/
def slice? (start stop : Nat) (cs : List Char) : Option (List Char) :=
  if start ≤ stop then (suffix? start cs).bind (prefix? (stop - start)) else none

theorem eq_append_of_suffix? (h : suffix? i cs = some vs) :
    ∃ us, cs = us ++ vs ∧ byteLength us = i := by
  obtain ⟨⟨us, ws⟩, hcut, rfl⟩ := Option.map_eq_some_iff.mp h
  exact ⟨us, cutAtByte?_eq_some_iff.mp hcut⟩

theorem prefix?_append (us vs : List Char) : prefix? (byteLength us) (us ++ vs) = some us := by
  rw [prefix?, cutAtByte?_append]
  rfl

theorem suffix?_append (us vs : List Char) : suffix? (byteLength us) (us ++ vs) = some vs := by
  rw [suffix?, cutAtByte?_append]
  rfl

theorem slice?_append (us vs ws : List Char) :
    slice? (byteLength us) (byteLength us + byteLength vs) (us ++ (vs ++ ws)) = some vs := by
  rw [slice?, if_pos (Nat.le_add_right _ _), suffix?_append, Nat.add_sub_cancel_left]
  exact prefix?_append vs ws

/-- Nothing can be cut out that begins or ends inside a character. -/
example : slice? 1 2 "é".toList = none := by decide

end LambdaShell.Text
