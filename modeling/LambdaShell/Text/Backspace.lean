/-
Lines that were typed with backspaces.

A backspace takes back the cluster in front of it.  Widths are kept in one byte each, so of
a cluster of 256 bytes or more only the remainder is taken back, and a remainder that ends
inside a character can not be.
-/
import LambdaShell.Text.Cluster

namespace LambdaShell.Text

-- The empty sum is the core library's zero, also where algebra offers others.
attribute [local instance (high)] Zero.ofOfNat0

/-- A line while it is typed. -/
structure Typed where
  /-- The characters, latest first. -/
  chars : List Char
  /-- How many bytes each backspace takes back, latest cluster first. -/
  widths : List UInt8

namespace Typed

/-- Nothing has been typed. -/
def empty : Typed := ⟨[], []⟩

/-- The width of a cluster: its length in bytes, as far as a byte can hold it. -/
def width (cluster : List Char) : UInt8 := (cluster.map Char.utf8Size).sum.toUInt8

/-- The characters behind the first `n` bytes, unless these end inside a character. -/
def dropBytes? : Nat → List Char → Option (List Char)
  | 0, cs => some cs
  | _ + 1, [] => none
  | n + 1, c :: cs => if c.utf8Size ≤ n + 1 then dropBytes? (n + 1 - c.utf8Size) cs else none

/-- Takes back the latest cluster, if there is one. -/
def erase? (t : Typed) : Option Typed :=
  match t.widths with
  | [] => some t
  | w :: ws => (dropBytes? w.toNat t.chars).map (⟨·, ws⟩)

/-- Types a cluster. -/
def type? (t : Typed) (cluster : List Char) : Option Typed :=
  if cluster = ['\x08'] then t.erase?
  else some ⟨cluster.reverse ++ t.chars, width cluster :: t.widths⟩

end Typed

/-- What is left of a line once its backspaces have been obeyed. -/
def obeyBackspaces? (cs : List Char) : Option (List Char) :=
  ((clusters cs).foldlM Typed.type? .empty).map (·.chars.reverse)

/-! ### Lines without backspaces -/

/-- Clusters that are no backspaces are typed one behind the other. -/
theorem Typed.foldlM_type? (t : Typed) (gs : List (List Char)) (h : ['\x08'] ∉ gs) :
    (gs.foldlM Typed.type? t).map (·.chars) = some (gs.flatten.reverse ++ t.chars) := by
  induction gs generalizing t with
  | nil => rfl
  | cons g gs ih =>
    obtain ⟨hg, hgs⟩ := not_or.1 (h ∘ List.mem_cons.2)
    have htype : t.type? g = some ⟨g.reverse ++ t.chars, width g :: t.widths⟩ :=
      if_neg fun e => hg e.symm
    simp [List.foldlM_cons, htype, ih _ hgs]

/-- A line without backspaces stays as it is. -/
theorem obeyBackspaces?_eq_self (cs : List Char) (h : '\x08' ∉ cs) :
    obeyBackspaces? cs = some cs := by
  have hg : ['\x08'] ∉ clusters cs := fun hm =>
    h (flatten_clusters cs ▸ List.mem_flatten.2 ⟨_, hm, List.mem_singleton_self _⟩)
  have hf := Typed.foldlM_type? .empty (clusters cs) hg
  rw [flatten_clusters] at hf
  obtain ⟨t, ht, hc⟩ := Option.map_eq_some_iff.1 hf
  rw [obeyBackspaces?, ht, Option.map_some, hc]
  simp [Typed.empty]

end LambdaShell.Text
