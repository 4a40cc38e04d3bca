/-
Lambdas read by slices.

Tokens are found by their length in bytes, and what a token or a flaw looks like is sliced out
of the source; a string is sliced once more, to take it out of its quotation marks.  A stretch
that is read is what the rest of the source begins with, whether it is a token or a flaw, so
it ends where a character ends.

With this every slice and index is accounted for that reading a line, a literal or a lambda
takes, and none is refused.
-/
import Mathlib
import LambdaShell.Lambda
import LambdaShell.Proofs.Expr.Lexing
import LambdaShell.Proofs.Sliced.Data
import LambdaShell.Proofs.Sliced.Lines

namespace LambdaShell.Sliced

open Text Lexer

variable {c : Char} {cs : List Char}

/-! ### Tokens -/

/-- What a stretch of the source that is no token is reported as. -/
def flaw (text : List Char) : Cause :=
  if text.head?.any isQuote then .badString (String.ofList text)
  else if text.head?.any Char.isDigit then .badNumber (String.ofList text)
  else .strayText (String.ofList text)

/-- The token that begins with `c`, with `cs` behind it, read from the stretch of the source
that it takes; a complete string is taken out of its quotation marks. -/
def readStretch (c : Char) (cs text : List Char) : Option (Except Cause Token) :=
  if isQuote c ∧ (stringBody c cs).2 then do
    let inner ← slice? 1 (byteLength text - 1) text
    return match unescape inner with
      | some s => .ok (.str (String.ofList s))
      | none => .error (flaw text)
  else return match (scan c cs).result with
    | .ok t => .ok t
    | .error _ => .error (flaw text)

/-- The tokens and flaws of the source from byte `start` on, `cs` being what is still to be
read. -/
def pieces (source : List Char) (start : Nat) (cs : List Char) : Option (List Piece) :=
  match cs with
  | [] => some []
  | c :: cs =>
    if isGap c then pieces source (start + c.utf8Size) cs
    else do
      let stop := start + byteLength (scan c cs).taken
      let text ← slice? start stop source
      let result ← readStretch c cs text
      let rest ← pieces source stop (cs.drop ((scan c cs).taken.length - 1))
      return ⟨result, ⟨start, stop⟩⟩ :: rest
termination_by cs.length

/-- The tokens of a text, or else all of its flaws. -/
def tokenize (source : List Char) : Option (Except (List Issue) (List Lexeme)) := do
  let found ← pieces source 0 source
  return match found.filterMap (·.issue?) with
    | [] => .ok (found.filterMap (·.lexeme?))
    | issues => .error issues

/-- The inside of a string comes next, also if it does not end. -/
theorem stringBody_front (quote : Char) (cs : List Char) : (stringBody quote cs).1 <+: cs := by
  fun_induction stringBody quote cs with
  | case1 => exact List.prefix_refl _
  | case2 => exact List.nil_prefix
  | case3 c cs hc ih => exact (List.prefix_cons_inj _).mpr ((List.prefix_cons_inj _).mpr ih)
  | case4 => exact List.nil_prefix
  | case5 => exact List.nil_prefix
  | case6 c cs _ _ _ ih => exact (List.prefix_cons_inj _).mpr ih

theorem taken_string (quote : Char) (cs : List Char) : (scanString quote cs).taken
    = if (stringBody quote cs).2 then quote :: ((stringBody quote cs).1 ++ [quote])
      else quote :: (stringBody quote cs).1 := by
  unfold scanString
  dsimp only
  split
  · split <;> rfl
  · rfl

/-- What is read comes first in the rest of the source, and is not empty. -/
theorem taken_front (c : Char) (cs : List Char) :
    (scan c cs).taken <+: c :: cs ∧ (scan c cs).taken ≠ [] := by
  unfold scan
  by_cases hname : isNameStart c = true
  · rw [if_pos hname]
    have hword := @Stretch.word c cs (isNameChar_of_isNameStart hname)
    exact ⟨hword.front, hword.ne_nil⟩
  rw [if_neg hname]
  by_cases hdigit : c.isDigit = true
  · rw [if_pos hdigit]
    have hnumber := @Stretch.number c cs hdigit
    exact ⟨hnumber.front, hnumber.ne_nil⟩
  rw [if_neg hdigit]
  by_cases hquote : c = '"' ∨ c = '\''
  · rw [if_pos hquote, taken_string]
    split
    · rename_i hclosed
      obtain ⟨rest, hrest⟩ := stringBody_eq hclosed
      refine ⟨⟨rest, ?_⟩, List.cons_ne_nil _ _⟩
      rw [List.cons_append, List.append_assoc, List.singleton_append, ← hrest]
    · exact ⟨(List.prefix_cons_inj _).mpr (stringBody_front c cs), List.cons_ne_nil _ _⟩
  · rw [if_neg hquote]
    cases hresult : (scanSymbol c cs).result with
    | ok t =>
        have hsymbol := Stretch.symbol hresult
        exact ⟨hsymbol.front, hsymbol.ne_nil⟩
    | error cause =>
        unfold scanSymbol at hresult ⊢
        split at hresult
        · cases hresult
        · exact ⟨⟨cs, rfl⟩, List.cons_ne_nil _ _⟩

/-- So it begins with the first character, and the rest of it comes next. -/
theorem taken_cons (c : Char) (cs : List Char) :
    ∃ more rest, (scan c cs).taken = c :: more ∧ more ++ rest = cs := by
  obtain ⟨hfront, hne⟩ := taken_front c cs
  obtain ⟨more, htaken, rest, hrest⟩ := (List.prefix_cons_iff.mp hfront).resolve_left hne
  exact ⟨more, rest, htaken, hrest⟩

theorem error_of_decimalScan {x : Number.Scientific} {read taken : List Char} {cause : Cause}
    (h : decimalScan x read = ⟨.error cause, taken⟩) : cause = .badNumber (String.ofList taken) := by
  unfold decimalScan at h
  dsimp only at h
  split at h
  · cases (Scan.mk.inj h).1
  · cases h
    rfl

/-- A number out of range is reported by all of its characters. -/
theorem error_of_scanNumber {taken : List Char} {cause : Cause}
    (h : scanNumber cs = ⟨.error cause, taken⟩) : cause = .badNumber (String.ofList taken) := by
  unfold scanNumber at h
  extract_lets whole fraction mantissa exponent number next value at h
  split at h
  · exact error_of_decimalScan h
  split at h
  · exact error_of_decimalScan h
  split at h
  · cases (Scan.mk.inj h).1
  · obtain ⟨hresult, rfl⟩ := Scan.mk.inj h
    exact (Except.error.inj hresult).symm

/-- A string that does not end, or has an unknown escape, is reported by all of its
characters. -/
theorem error_of_scanString {quote : Char} {taken : List Char} {cause : Cause}
    (h : scanString quote cs = ⟨.error cause, taken⟩) : cause = .badString (String.ofList taken) := by
  unfold scanString at h
  extract_lets body text flaw at h
  split at h
  · split at h
    · cases (Scan.mk.inj h).1
    · obtain ⟨hresult, rfl⟩ := Scan.mk.inj h
      exact (Except.error.inj hresult).symm
  · obtain ⟨hresult, rfl⟩ := Scan.mk.inj h
    exact (Except.error.inj hresult).symm

theorem not_isQuote_of_isDigit (h : c.isDigit = true) : isQuote c = false := by
  rw [Bool.eq_false_iff, Ne, isQuote_iff]
  rintro (rfl | rfl) <;> cases h

/-- What is no token is reported by all the characters that were read. -/
theorem error_of_scan {taken : List Char} {cause : Cause} (h : scan c cs = ⟨.error cause, taken⟩) :
    cause = flaw taken := by
  obtain ⟨more, -, htaken, -⟩ := taken_cons c cs
  rw [h] at htaken
  obtain rfl : taken = c :: more := htaken
  unfold flaw
  rw [List.head?_cons, Option.any_some, Option.any_some]
  unfold scan at h
  split at h
  · cases (Scan.mk.inj h).1
  split at h
  · rename_i hdigit
    rw [not_isQuote_of_isDigit hdigit, if_neg Bool.false_ne_true, if_pos hdigit]
    exact error_of_scanNumber h
  rename_i hdigit
  split at h
  · rename_i hquote
    rw [if_pos (isQuote_iff.mpr hquote)]
    exact error_of_scanString h
  rename_i hquote
  rw [if_neg fun hc => hquote (isQuote_iff.mp hc), if_neg hdigit]
  unfold scanSymbol at h
  split at h
  · cases (Scan.mk.inj h).1
  · cases h
    rfl

theorem scan_of_isQuote (h : isQuote c = true) : scan c cs = scanString c cs := by
  rcases isQuote_iff.mp h with rfl | rfl <;> rfl

/-- The stretch that is read spells what is read. -/
theorem readStretch_eq (c : Char) (cs : List Char) :
    readStretch c cs (scan c cs).taken = some (scan c cs).result := by
  unfold readStretch
  by_cases hstring : isQuote c = true ∧ (stringBody c cs).2 = true
  · obtain ⟨hquote, hclosed⟩ := hstring
    have hflaw : flaw (c :: ((stringBody c cs).1 ++ [c]))
        = .badString (String.ofList (c :: ((stringBody c cs).1 ++ [c]))) := if_pos hquote
    rw [if_pos ⟨hquote, hclosed⟩, scan_of_isQuote hquote, taken_string, if_pos hclosed,
      slice?_quoted hquote, hflaw]
    unfold scanString
    dsimp only
    rw [if_pos hclosed, if_pos hclosed, Option.bind_eq_bind, Option.bind_some]
    cases unescape (stringBody c cs).1 <;> rfl
  · rw [if_neg hstring]
    cases hscan : scan c cs with
    | mk result taken =>
        cases result with
        | ok t => rfl
        | error cause =>
            rw [error_of_scan hscan]
            rfl

/-- The pieces of a text are found without a refused slice. -/
theorem pieces_eq (front cs : List Char) :
    pieces (front ++ cs) (byteLength front) cs = some (Lexer.pieces (byteLength front) cs) := by
  generalize hstart : byteLength front = start
  fun_induction Lexer.pieces start cs generalizing front with
  | case1 =>
      rw [pieces]
  | case2 start c cs hc ih =>
      have hrest := ih (front ++ [c]) (by rw [byteLength_append, hstart]; rfl)
      rw [List.append_assoc, List.singleton_append] at hrest
      rw [pieces, if_pos hc, hrest]
  | case3 start c cs hc s stop ih =>
      subst hstart
      obtain ⟨more, rest, htaken, hrest⟩ := taken_cons c cs
      have hdrop : cs.drop ((scan c cs).taken.length - 1) = rest := by
        rw [htaken, ← hrest, List.length_cons, Nat.add_sub_cancel, List.drop_left]
      have hsplit : (scan c cs).taken ++ rest = c :: cs := by
        rw [htaken, List.cons_append, hrest]
      have hslice : slice? (byteLength front) (byteLength front + byteLength (scan c cs).taken)
          (front ++ c :: cs) = some (scan c cs).taken := by
        rw [← hsplit]
        exact slice?_append front (scan c cs).taken rest
      have hpieces := ih (front ++ (scan c cs).taken) (byteLength_append _ _)
      rw [hdrop, List.append_assoc, hsplit] at hpieces
      rw [pieces, if_neg hc]
      dsimp only
      rw [hslice, hdrop, hpieces, Option.bind_eq_bind, Option.bind_some, readStretch_eq]
      rfl

theorem tokenize_eq (source : List Char) : tokenize source = some (LambdaShell.tokenize source) := by
  unfold tokenize LambdaShell.tokenize
  rw [show pieces source 0 source = some (Lexer.pieces 0 source) from pieces_eq [] source]
  rfl

/-! ### Lambdas -/

/-- The members of a record before the one at that index. -/
def membersBefore? (members : List (String × Expr)) (i : Nat) : Option (List (String × Expr)) :=
  if i ≤ members.length then some (members.take i) else none

/-- The issues of the members of a record from index `i` on. -/
def recordIssues (param : String) (all : List (String × Expr)) (i : Nat) :
    List (String × Expr) → Option (List Issue)
  | [] => some []
  | (n, e) :: ms => do
    let before ← membersBefore? all i
    let rest ← recordIssues param all (i + 1) ms
    return (if before.any (·.1 == n) then e.issueAt (.duplicateMember n) else [])
      ++ e.issues param ++ rest

/-- The lambda that a text spells, or why it spells none. -/
def parseLambda (source : List Char) : Option (Except (List Issue) LambdaExpr) := do
  return match ← tokenize source with
    | .error issues => .error issues
    | .ok ts =>
      match readLambda (byteLength source) ts with
      | .error issue => .error [issue]
      | .ok lambda => .ok lambda

/-- Compiles a text. -/
def compile (source : List Char) (goal : Goal) : Option (Except CompileError Lambda) :=
  let cs := trim source
  match findForbidden cs with
  | some p => some (.error (.security p))
  | none =>
    if cs.isEmpty then some (.error (.invalid [⟨0, .emptySource⟩]))
    else if !Eval.occursIn ['=', '>'] cs then some (.error (.invalid [⟨0, .notLambda⟩]))
    else do
      return match ← parseLambda cs with
        | .error issues => .error (.invalid issues)
        | .ok expr => Lambda.ofExpr cs goal expr

theorem recordIssues_eq (param : String) (front ms : List (String × Expr)) (seen : List String)
    (hseen : ∀ n, seen.contains n = front.any (·.1 == n)) :
    recordIssues param (front ++ ms) front.length ms = some (Expr.recordIssues param seen ms) := by
  induction ms generalizing front seen with
  | nil => rfl
  | cons m ms ih =>
      obtain ⟨n, e⟩ := m
      have hbefore : membersBefore? (front ++ (n, e) :: ms) front.length = some front := by
        rw [membersBefore?, if_pos (by simp), List.take_left]
      have hrest := ih (front ++ [(n, e)]) (n :: seen) fun d => by
        rw [List.contains_cons, hseen d, List.any_append, Bool.or_comm]
        simp [Bool.beq_comm]
      rw [List.append_assoc, List.singleton_append, List.length_append, List.length_singleton]
        at hrest
      rw [recordIssues, hbefore]
      show (recordIssues param _ (front.length + 1) ms).bind _ = _
      rw [hrest, Expr.recordIssues, hseen n]
      rfl

theorem parseLambda_eq (source : List Char) :
    parseLambda source = some (LambdaShell.parseLambda source) := by
  unfold parseLambda LambdaShell.parseLambda
  rw [tokenize_eq]
  rfl

theorem compile_eq (source : List Char) (goal : Goal) :
    compile source goal = some (Lambda.compile source goal) := by
  unfold compile Lambda.compile Lambda.compileTrimmed
  dsimp only
  cases findForbidden (trim source) with
  | some p => rfl
  | none =>
      dsimp only
      split_ifs
      · rfl
      · rfl
      · rw [parseLambda_eq]
        rfl

/-! ### No slice is refused -/

/-- **Whatever is read, no slice and no index is refused.**  On every text the readers that
slice by byte offsets have an answer, and it is the answer of the readers that do not: data
lines and literals, command lines with the arguments of `orderby` and `groupby`, tokens and
lambdas.  So it is with the members before a member, in every record that is checked. -/
theorem no_slice_refused (text : List Char) (goal : Goal) (param : String)
    (members : List (String × Expr)) :
    readData text = some (LambdaShell.readData text) ∧
    ofLiteral text = some (Value.ofLiteral text) ∧
    splitLine text = some (Command.splitLine text) ∧
    splitOrderBy text = some (Command.splitOrderBy text) ∧
    splitGroupBy text = some (Command.splitGroupBy text) ∧
    ofLine text = some (Command.ofLine text) ∧
    tokenize text = some (LambdaShell.tokenize text) ∧
    compile text goal = some (Lambda.compile text goal) ∧
    recordIssues param members 0 members = some (Expr.recordIssues param [] members) :=
  ⟨readData_eq text, ofLiteral_eq text, splitLine_eq text, splitOrderBy_eq text,
    splitGroupBy_eq text, ofLine_eq text, tokenize_eq text, compile_eq text goal,
    recordIssues_eq param [] members [] fun _ => rfl⟩

end LambdaShell.Sliced
