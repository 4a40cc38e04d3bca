/-
Spans delimit their own expressions.

The span of a node goes from where the first of its tokens starts to where the last one ends;
that much is in the grammar.  Tokens follow one another in the text, so the span picks exactly
these tokens out of all of them, the spans of the children follow one another inside of it, and
the tokens it picks are read alone as the node that it is the span of.

Issues are placed at the start of a node, and therefore where a token starts.
-/
import Mathlib
import LambdaShell.Expr.Typing
import LambdaShell.Proofs.Expr.Alone
import LambdaShell.Proofs.Sliced.Lambdas

namespace LambdaShell

open Text

variable {ts us vs : List Lexeme} {a b : Nat}

/-! ### Tokens in the text -/

/-- The tokens stand one behind the other, and none of them is empty. -/
structure Placed (ts : List Lexeme) : Prop where
  nonempty : ∀ l ∈ ts, l.span.start < l.span.stop
  ordered : ts.Pairwise fun l r => l.span.stop ≤ r.span.start

theorem Placed.sublist (h : Placed ts) (hus : us.Sublist ts) : Placed us :=
  ⟨fun l hl => h.nonempty l (hus.subset hl), h.ordered.sublist hus⟩

/-- Pieces of a text stand one behind the other from where the text begins to where it ends. -/
theorem pieces_placed (start : Nat) (cs : List Char) :
    (∀ p ∈ Lexer.pieces start cs, start ≤ p.span.start ∧ p.span.start < p.span.stop ∧
      p.span.stop ≤ start + byteLength cs) ∧
    (Lexer.pieces start cs).Pairwise fun p q => p.span.stop ≤ q.span.start := by
  fun_induction Lexer.pieces start cs with
  | case1 => exact ⟨List.forall_mem_nil _, List.Pairwise.nil⟩
  | case2 start c cs hc ih =>
      refine ⟨fun p hp => ?_, ih.2⟩
      have hplace := ih.1 p hp
      rw [byteLength_cons]
      omega
  | case3 start c cs hc s stop ih =>
      obtain ⟨more, rest, htaken, rfl⟩ := Sliced.taken_cons c cs
      have hdrop : (more ++ rest).drop (s.taken.length - 1) = rest := by
        show (more ++ rest).drop ((Lexer.scan c (more ++ rest)).taken.length - 1) = rest
        rw [htaken]
        exact List.drop_left
      have hstop : stop = start + (c.utf8Size + byteLength more) := by
        show start + byteLength (Lexer.scan c (more ++ rest)).taken = _
        rw [htaken, byteLength_cons]
      have hsize := c.utf8Size_pos
      rw [hdrop] at ih ⊢
      rw [byteLength_cons, byteLength_append]
      refine ⟨List.forall_mem_cons.mpr ⟨?_, fun p hp => ?_⟩,
        List.pairwise_cons.mpr ⟨fun p hp => (ih.1 p hp).1, ih.2⟩⟩
      · dsimp only
        omega
      · have hplace := ih.1 p hp
        omega

theorem lexeme?_span {p : Lexer.Piece} {l : Lexeme} (h : p.lexeme? = some l) : l.span = p.span := by
  unfold Lexer.Piece.lexeme? at h
  split at h
  · cases h
    rfl
  · cases h

/-- The tokens of a text are placed in it. -/
theorem placed_of_tokenize {source : List Char} (h : tokenize source = .ok ts) :
    Placed ts ∧ ∀ l ∈ ts, l.span.stop ≤ byteLength source := by
  obtain ⟨hplaces, hordered⟩ := pieces_placed 0 source
  obtain rfl : (Lexer.pieces 0 source).filterMap (·.lexeme?) = ts := by
    unfold tokenize at h
    dsimp only at h
    split at h
    · exact Except.ok.inj h
    · cases h
  have hplace : ∀ l ∈ (Lexer.pieces 0 source).filterMap (·.lexeme?),
      l.span.start < l.span.stop ∧ l.span.stop ≤ byteLength source := by
    intro l hl
    obtain ⟨p, hp, hpl⟩ := List.mem_filterMap.mp hl
    have hspan := hplaces p hp
    rw [lexeme?_span hpl]
    omega
  refine ⟨⟨fun l hl => (hplace l hl).1, ?_⟩, fun l hl => (hplace l hl).2⟩
  rw [List.pairwise_filterMap]
  refine hordered.imp fun {p q} hpq l hl r hr => ?_
  rw [lexeme?_span hl, lexeme?_span hr]
  exact hpq

/-! ### From the first token to the last -/

/-- The first token starts there. -/
def StartsAt (ts : List Lexeme) (a : Nat) : Prop := ∃ l us, ts = l :: us ∧ l.span.start = a

/-- The last token ends there. -/
def EndsAt (ts : List Lexeme) (b : Nat) : Prop := ∃ us l, ts = us ++ [l] ∧ l.span.stop = b

theorem StartsAt.cons (l : Lexeme) (us : List Lexeme) : StartsAt (l :: us) l.span.start :=
  ⟨l, us, rfl, rfl⟩

theorem StartsAt.append (h : StartsAt ts a) (us : List Lexeme) : StartsAt (ts ++ us) a := by
  obtain ⟨l, vs, rfl, ha⟩ := h
  exact ⟨l, vs ++ us, rfl, ha⟩

theorem EndsAt.concat (us : List Lexeme) (l : Lexeme) : EndsAt (us ++ [l]) l.span.stop :=
  ⟨us, l, rfl, rfl⟩

theorem EndsAt.append (h : EndsAt us b) (ts : List Lexeme) : EndsAt (ts ++ us) b := by
  obtain ⟨vs, l, rfl, hb⟩ := h
  exact ⟨ts ++ vs, l, (List.append_assoc _ _ _).symm, hb⟩

theorem EndsAt.cons (h : EndsAt us b) (l : Lexeme) : EndsAt (l :: us) b := h.append [l]

theorem Expr.span_withSpan (s : Span) (e : Expr) : (e.withSpan s).span = s := by
  cases e <;> rfl

/-! ### Children among the tokens -/

/-- Each expression has tokens from its start to its end, and behind them those of the next. -/
def Rows (ts : List Lexeme) : List Expr → Prop
  | [] => True
  | e :: es => ∃ us vs, (us ++ vs).Sublist ts ∧ StartsAt us e.span.start ∧ EndsAt us e.span.stop ∧
      Rows vs es

theorem Rows.sublist {es : List Expr} (h : Rows us es) (hus : us.Sublist ts) : Rows ts es := by
  cases es with
  | nil => trivial
  | cons e es =>
      obtain ⟨row, more, hrow, hstart, hend, hmore⟩ := h
      exact ⟨row, more, hrow.trans hus, hstart, hend, hmore⟩

theorem Rows.bounds {es : List Expr} (h : Rows ts es) : ∀ c ∈ es,
    (∃ l ∈ ts, l.span.start = c.span.start) ∧ ∃ l ∈ ts, l.span.stop = c.span.stop := by
  induction es generalizing ts with
  | nil => exact List.forall_mem_nil _
  | cons e es ih =>
      obtain ⟨us, vs, hsublist, ⟨first, more, rfl, hfirst⟩, ⟨front, last, heq, hlast⟩, hes⟩ := h
      refine List.forall_mem_cons.mpr ⟨⟨⟨first, ?_, hfirst⟩, last, ?_, hlast⟩, fun c hc => ?_⟩
      · exact hsublist.subset (by simp)
      · exact hsublist.subset (by simp [heq])
      · obtain ⟨⟨l, hl, hstart⟩, r, hr, hend⟩ := ih hes c hc
        exact ⟨⟨l, hsublist.subset (List.mem_append_right _ hl), hstart⟩, r,
          hsublist.subset (List.mem_append_right _ hr), hend⟩

/-- The tree lies in the tokens: it starts with the first and ends with the last of them, and its
children have theirs in between. -/
structure Laid (ts : List Lexeme) (e : Expr) : Prop where
  starts : StartsAt ts e.span.start
  ends : EndsAt ts e.span.stop
  children : Rows ts e.children

theorem Laid.row {e : Expr} {es : List Expr} (h : Laid ts e) (hes : Rows us es) :
    Rows (ts ++ us) (e :: es) :=
  ⟨ts, us, List.Sublist.refl _, h.starts, h.ends, hes⟩

theorem Laid.lastRow {e : Expr} (h : Laid ts e) : Rows ts [e] := by
  have hrow : Rows (ts ++ []) [e] := h.row trivial
  rwa [List.append_nil] at hrow

/-- A token between two expressions belongs to neither of them. -/
theorem Laid.divided {l : Lexeme} {e : Expr} {es : List Expr} (h : Laid ts e) (hes : Rows us es) :
    Rows (ts ++ l :: us) (e :: es) :=
  (h.row hes).sublist ((List.Sublist.refl ts).append (List.sublist_cons_self l us))

theorem Laid.withSpan {e : Expr} {p q : Lexeme} (h : Laid ts e) :
    Laid (p :: (ts ++ [q])) (e.withSpan ⟨p.span.start, q.span.stop⟩) := by
  refine ⟨?_, ?_, ?_⟩
  · rw [Expr.span_withSpan]
    exact .cons _ _
  · rw [Expr.span_withSpan]
    exact (EndsAt.concat _ _).cons _
  · rw [Expr.children_withSpan]
    exact h.children.sublist ((List.sublist_append_left _ _).cons _)

mutual

/-- The tree of a phrase lies in its tokens. -/
theorem Derives.laid {p : Phrase} {ts : List Lexeme} {e : Expr} : Derives p ts e → Laid ts e
  | .conditional htest hyes hno =>
      ⟨htest.laid.starts.append _, (((hno.laid.ends.cons _).append _).cons _).append _,
        htest.laid.divided (hyes.laid.divided hno.laid.lastRow)⟩
  | .expr h => h.laid
  | .orElse hlhs hrhs =>
      ⟨hlhs.laid.starts.append _, (hrhs.laid.ends.cons _).append _,
        hlhs.laid.divided hrhs.laid.lastRow⟩
  | .coalesce h => h.laid
  | .infixed _ hlhs hrhs =>
      ⟨hlhs.laid.starts.append _, (hrhs.laid.ends.cons _).append _,
        hlhs.laid.divided hrhs.laid.lastRow⟩
  | .operand h => h.laid
  | .prefixed h =>
      ⟨.cons _ _, h.laid.ends.cons _, h.laid.lastRow.sublist (List.sublist_cons_self _ _)⟩
  | .cast _ h =>
      ⟨.cons _ _, ((h.laid.ends.cons _).cons _).cons _,
        h.laid.lastRow.sublist (((List.sublist_cons_self _ _).cons _).cons _)⟩
  | .unary h => h.laid
  | .member h _ =>
      ⟨h.laid.starts.append _, (EndsAt.concat [_] _).append _,
        h.laid.lastRow.sublist (List.sublist_append_left _ _)⟩
  | .method h _ hargs =>
      ⟨h.laid.starts.append _, ((((EndsAt.concat _ _).cons _).cons _).cons _).append _,
        h.laid.divided (hargs.rows.sublist (((List.sublist_append_left _ _).cons _).cons _))⟩
  | .access h => h.laid
  | .literal _ => ⟨.cons _ _, .concat [] _, trivial⟩
  | .name => ⟨.cons _ _, .concat [] _, trivial⟩
  | .paren h _ => h.laid.withSpan
  | .record h =>
      ⟨.cons _ _, ((EndsAt.concat _ _).cons _).cons _,
        h.rows.sublist (((List.sublist_append_left _ _).cons _).cons _)⟩
  | .math h =>
      ⟨.cons _ _, ((((EndsAt.concat _ _).cons _).cons _).cons _).cons _,
        h.rows.sublist (((((List.sublist_append_left _ _).cons _).cons _).cons _).cons _)⟩

theorem DerivesArgs.rows {ts : List Lexeme} {es : List Expr} : DerivesArgs ts es → Rows ts es
  | .none => trivial
  | .one h => h.laid.lastRow
  | .more h hmore => h.laid.divided hmore.rows

/-- The value of a record member lies in the last of its tokens. -/
theorem DerivesMember.laid {ts : List Lexeme} {m : String × Expr} :
    DerivesMember ts m → ∃ us, us <:+ ts ∧ Laid us m.2
  | .named h => ⟨_, ⟨[_, _], rfl⟩, h.laid⟩
  | .suggested h _ => ⟨_, List.suffix_refl _, h.laid⟩

theorem DerivesMembers.rows {ts : List Lexeme} {ms : List (String × Expr)} :
    DerivesMembers ts ms → Rows ts (ms.map (·.2))
  | .none => trivial
  | .last h => by
      obtain ⟨us, hus, hlaid⟩ := h.laid
      exact hlaid.lastRow.sublist hus.sublist
  | .more h hmore => by
      obtain ⟨us, hus, hlaid⟩ := h.laid
      exact (hlaid.divided hmore.rows).sublist (hus.sublist.append (List.Sublist.refl _))

end

/-! ### Spans of placed tokens -/

/-- The tokens inside of a span. -/
def tokensIn (s : Span) (ts : List Lexeme) : List Lexeme :=
  ts.filter fun l => s.start ≤ l.span.start ∧ l.span.stop ≤ s.stop

section Placed

variable (h : Placed ts)
include h

theorem Placed.start_le (hstart : StartsAt ts a) : ∀ l ∈ ts, a ≤ l.span.start := by
  obtain ⟨first, us, rfl, rfl⟩ := hstart
  have hfirst := h.nonempty first List.mem_cons_self
  refine List.forall_mem_cons.mpr ⟨Nat.le_refl _, fun l hl => ?_⟩
  have hbehind := (List.pairwise_cons.mp h.ordered).1 l hl
  omega

theorem Placed.le_stop (hend : EndsAt ts b) : ∀ l ∈ ts, l.span.stop ≤ b := by
  obtain ⟨us, last, rfl, rfl⟩ := hend
  have hlast := h.nonempty last (by simp)
  intro l hl
  rcases List.mem_append.mp hl with hl | hl
  · have hbefore := (List.pairwise_append.mp h.ordered).2.2 l hl last (List.mem_singleton_self _)
    omega
  · rw [List.mem_singleton.mp hl]

/-- The spans of expressions with tokens of their own follow one another. -/
theorem Placed.rows_pairwise {es : List Expr} (hes : Rows ts es) :
    es.Pairwise fun c d => c.span.stop ≤ d.span.start := by
  induction es generalizing ts with
  | nil => exact List.Pairwise.nil
  | cons e es ih =>
      obtain ⟨us, vs, hsublist, -, ⟨row, last, rfl, hlast⟩, hes⟩ := hes
      have hplaced := h.sublist hsublist
      have hmore : Placed vs := hplaced.sublist (List.sublist_append_right _ _)
      refine List.pairwise_cons.mpr ⟨fun d hd => ?_, ih hmore hes⟩
      obtain ⟨⟨l, hl, hstart⟩, -⟩ := hes.bounds d hd
      rw [← hlast, ← hstart]
      exact (List.pairwise_append.mp hplaced.ordered).2.2 last (by simp) l hl

/-- A span picks its own tokens out of all tokens. -/
theorem Placed.tokensIn_eq {s : Span} (hus : us <:+: ts) (hstart : StartsAt us s.start)
    (hend : EndsAt us s.stop) : tokensIn s ts = us := by
  have hplaced : Placed us := h.sublist hus.sublist
  obtain ⟨front, behind, rfl⟩ := hus
  obtain ⟨horder, -, hbehind⟩ := List.pairwise_append.mp h.ordered
  obtain ⟨-, -, hfront⟩ := List.pairwise_append.mp horder
  have hinside : tokensIn s us = us := by
    refine List.filter_eq_self.mpr fun l hl => decide_eq_true ⟨?_, ?_⟩
    · exact hplaced.start_le hstart l hl
    · exact hplaced.le_stop hend l hl
  have hbefore : tokensIn s front = [] := by
    refine List.filter_eq_nil_iff.mpr fun l hl => ?_
    obtain ⟨first, more, rfl, hfirst⟩ := hstart
    have hnonempty := h.nonempty l (by simp [hl])
    have hle := hfront l hl first List.mem_cons_self
    rw [decide_eq_true_eq]
    omega
  have hafter : tokensIn s behind = [] := by
    refine List.filter_eq_nil_iff.mpr fun l hl => ?_
    obtain ⟨more, last, rfl, hlast⟩ := hend
    have hnonempty := h.nonempty l (by simp [hl])
    have hle := hbehind last (by simp) l hl
    rw [decide_eq_true_eq]
    omega
  rw [tokensIn, List.filter_append, List.filter_append]
  show tokensIn s front ++ tokensIn s us ++ tokensIn s behind = us
  rw [hbefore, hinside, hafter, List.nil_append, List.append_nil]

end Placed

/-! ### Nodes and their spans -/

/-- Among the tokens of a text of `stop` bytes, the span of the node delimits the node. -/
structure Delimits (stop : Nat) (ts : List Lexeme) (e : Expr) : Prop where
  starts : ∃ l ∈ ts, l.span.start = e.span.start
  ends : ∃ l ∈ ts, l.span.stop = e.span.stop
  nonempty : e.span.start < e.span.stop
  /-- The spans of the children are inside of it. -/
  inside : ∀ c ∈ e.children, e.span.start ≤ c.span.start ∧ c.span.stop ≤ e.span.stop
  /-- They follow one another. -/
  ordered : e.children.Pairwise fun c d => c.span.stop ≤ d.span.start
  /-- The tokens inside of it are read alone as the node. -/
  alone : (Rules.ofBudget stop maxDepth).expr (tokensIn e.span ts) = .ok (e, [])

theorem Placed.delimits {stop : Nat} {e : Expr} (h : Placed ts)
    (he : Rules.Alone stop maxDepth ts e) : Delimits stop ts e := by
  obtain ⟨used, hused, hread⟩ := he
  obtain ⟨own, hown, hd⟩ := (Rules.sound_ofBudget maxDepth).expr hread
  rw [List.append_nil] at hown
  subst hown
  have hplaced : Placed used := h.sublist hused.sublist
  have hstart := hd.laid.starts
  have hend := hd.laid.ends
  have hinside : ∀ l ∈ used, e.span.start ≤ l.span.start ∧ l.span.stop ≤ e.span.stop :=
    fun l hl => ⟨hplaced.start_le hstart l hl, hplaced.le_stop hend l hl⟩
  refine ⟨?_, ?_, ?_, fun c hc => ?_, hplaced.rows_pairwise hd.laid.children, ?_⟩
  · obtain ⟨first, more, rfl, hfirst⟩ := hstart
    exact ⟨first, hused.subset List.mem_cons_self, hfirst⟩
  · obtain ⟨more, last, rfl, hlast⟩ := hend
    exact ⟨last, hused.subset (by simp), hlast⟩
  · obtain ⟨first, more, rfl, hfirst⟩ := hstart
    have hnonempty := hplaced.nonempty first List.mem_cons_self
    have hbounds := hinside first List.mem_cons_self
    omega
  · obtain ⟨⟨l, hl, hstart⟩, r, hr, hend⟩ := hd.laid.children.bounds c hc
    exact ⟨hstart ▸ (hinside l hl).1, hend ▸ (hinside r hr).2⟩
  · rw [h.tokensIn_eq hused hstart hend, hread]

/-! ### Issues -/

namespace Expr

variable {param : String} {e : Expr} {i : Issue}

theorem offset_of_issueAt {cause : Cause} (h : i ∈ e.issueAt cause) : i.offset = e.span.start := by
  rw [List.mem_singleton.mp h]

theorem offset_of_memberIssues {t : Ty} {n : String} (h : i ∈ e.memberIssues t n) :
    i.offset = e.span.start := by
  unfold memberIssues at h
  split at h
  · split at h
    · cases h
    · exact offset_of_issueAt h
  · cases h
  · cases h
  · exact offset_of_issueAt h

theorem offset_of_methodIssues {t : Ty} {n : String} {count : Nat}
    (h : i ∈ e.methodIssues t n count) : i.offset = e.span.start := by
  unfold methodIssues at h
  split at h
  · exact offset_of_issueAt h
  · rcases List.mem_append.mp h with h | h
    · split at h
      · exact offset_of_issueAt h
      · cases h
    · split at h
      · exact offset_of_issueAt h
      · cases h

theorem offset_of_mathIssues {f : String} {count : Nat} (h : i ∈ e.mathIssues f count) :
    i.offset = e.span.start := by
  unfold mathIssues at h
  split at h
  · exact offset_of_issueAt h
  · split at h
    · cases h
    · exact offset_of_issueAt h

theorem offset_of_testIssues (h : i ∈ e.testIssues) : i.offset = e.span.start := by
  unfold testIssues at h
  split at h
  · cases h
  · exact offset_of_issueAt h

/-- The issue is one of the expression, or one with it where it stands. -/
def Concerns (param : String) (e : Expr) (i : Issue) : Prop :=
  i ∈ e.issues param ∨ i.offset = e.span.start

theorem concerns_of_argIssues {refusal : Ty → Option Cause} {es : List Expr}
    (h : i ∈ argIssues param refusal es) : ∃ c ∈ es, c.Concerns param i := by
  induction es with
  | nil => cases h
  | cons c es ih =>
      rw [argIssues] at h
      rcases List.mem_append.mp h with h | h
      · refine ⟨c, List.mem_cons_self, ?_⟩
        rcases List.mem_append.mp h with h | h
        · exact Or.inl h
        · cases hrefusal : refusal c.type with
          | none =>
              rw [hrefusal] at h
              cases h
          | some cause =>
              rw [hrefusal] at h
              exact Or.inr (offset_of_issueAt h)
      · obtain ⟨d, hd, hconcerns⟩ := ih h
        exact ⟨d, List.mem_cons_of_mem _ hd, hconcerns⟩

theorem concerns_of_recordIssues {seen : List String} {ms : List (String × Expr)}
    (h : i ∈ recordIssues param seen ms) : ∃ c ∈ ms.map (·.2), c.Concerns param i := by
  induction ms generalizing seen with
  | nil => cases h
  | cons m ms ih =>
      obtain ⟨n, c⟩ := m
      rw [recordIssues] at h
      rcases List.mem_append.mp h with h | h
      · refine ⟨c, List.mem_cons_self, ?_⟩
        rcases List.mem_append.mp h with h | h
        · split at h
          · exact Or.inr (offset_of_issueAt h)
          · cases h
        · exact Or.inl h
      · obtain ⟨d, hd, hconcerns⟩ := ih h
        exact ⟨d, List.mem_cons_of_mem _ hd, hconcerns⟩

/-- What is wrong with a node is wrong at its start, or concerns a child. -/
theorem issue_cases (h : i ∈ e.issues param) :
    i.offset = e.span.start ∨ ∃ c ∈ e.children, c.Concerns param i := by
  cases e with
  | literal s v => cases h
  | name s n =>
      replace h : i ∈ if n = param then [] else (name s n).issueAt (.unknownName n) := h
      split at h
      · cases h
      · exact Or.inl (offset_of_issueAt h)
  | member s target n =>
      replace h : i ∈ target.issues param ++ (member s target n).memberIssues target.type n := h
      rcases List.mem_append.mp h with h | h
      · exact Or.inr ⟨target, List.mem_singleton_self _, Or.inl h⟩
      · exact Or.inl (offset_of_memberIssues h)
  | method s target n args =>
      replace h : i ∈ target.issues param ++ argIssues param (textArgument n) args
        ++ (method s target n args).methodIssues target.type n args.length := h
      rcases List.mem_append.mp h with h | h
      · rcases List.mem_append.mp h with h | h
        · exact Or.inr ⟨target, List.mem_cons_self, Or.inl h⟩
        · obtain ⟨c, hc, hconcerns⟩ := concerns_of_argIssues h
          exact Or.inr ⟨c, List.mem_cons_of_mem _ hc, hconcerns⟩
      · exact Or.inl (offset_of_methodIssues h)
  | math s f args =>
      replace h : i ∈ argIssues param numberArgument args
        ++ (math s f args).mathIssues f args.length := h
      rcases List.mem_append.mp h with h | h
      · exact Or.inr (concerns_of_argIssues h)
      · exact Or.inl (offset_of_mathIssues h)
  | cast s t operand =>
      replace h : i ∈ operand.issues param ++ if t.isPossible operand.type then [] else
        (cast s t operand).issueAt (.impossibleCast operand.type t) := h
      rcases List.mem_append.mp h with h | h
      · exact Or.inr ⟨operand, List.mem_singleton_self _, Or.inl h⟩
      · split at h
        · cases h
        · exact Or.inl (offset_of_issueAt h)
  | unary s op operand =>
      rw [issues] at h
      rcases List.mem_append.mp h with h | h
      · exact Or.inr ⟨operand, List.mem_singleton_self _, Or.inl h⟩
      · split at h
        · cases h
        · exact Or.inl (offset_of_issueAt h)
  | binary s op l r =>
      rw [issues] at h
      rcases List.mem_append.mp h with h | h
      · rcases List.mem_append.mp h with h | h
        · exact Or.inr ⟨l, List.mem_cons_self, Or.inl h⟩
        · exact Or.inr ⟨r, List.mem_cons_of_mem _ List.mem_cons_self, Or.inl h⟩
      · split at h
        · cases h
        · exact Or.inl (offset_of_issueAt h)
  | conditional s test yes no =>
      replace h : i ∈ test.issues param ++ test.testIssues ++ yes.issues param
        ++ no.issues param := h
      simp only [List.mem_append] at h
      obtain ((h | h) | h) | h := h
      · exact Or.inr ⟨test, List.mem_cons_self, Or.inl h⟩
      · exact Or.inr ⟨test, List.mem_cons_self, Or.inr (offset_of_testIssues h)⟩
      · exact Or.inr ⟨yes, List.mem_cons_of_mem _ List.mem_cons_self, Or.inl h⟩
      · exact Or.inr ⟨no, List.mem_cons_of_mem _ (List.mem_cons_of_mem _ List.mem_cons_self),
          Or.inl h⟩
  | record s members => exact Or.inr (concerns_of_recordIssues h)

/-- Every issue is placed where a part of the expression starts. -/
theorem offset_of_mem_issues : ∀ i ∈ e.issues param, ∃ d ∈ e.parts, d.span.start = i.offset := by
  induction e using children_induction with
  | h e ih =>
      intro i hi
      rcases issue_cases hi with hoffset | ⟨c, hc, hi | hoffset⟩
      · exact ⟨e, e.self_mem_parts, hoffset.symm⟩
      · obtain ⟨d, hd, hoffset⟩ := ih c hc i hi
        exact ⟨d, mem_parts.mpr (Or.inr ⟨c, hc, hd⟩), hoffset⟩
      · exact ⟨c, mem_parts.mpr (Or.inr ⟨c, hc, c.self_mem_parts⟩), hoffset.symm⟩

end Expr

theorem LambdaExpr.offset_of_mem_issues {lambda : LambdaExpr} {goal : Goal} {i : Issue}
    (h : i ∈ lambda.issues goal) : ∃ d ∈ lambda.body.parts, d.span.start = i.offset := by
  rcases List.mem_append.mp h with h | h
  · exact lambda.body.offset_of_mem_issues i h
  · cases goal with
    | boolean => exact ⟨_, lambda.body.self_mem_parts, (Expr.offset_of_testIssues h).symm⟩
    | any => cases h

/-- **Spans delimit their own expressions.**  In a text that is a lambda, the span of every node of
the body goes from the start of a token to the end of one, is not empty, and holds the spans of
the children one behind the other; the tokens inside of it, read as an expression, are that node
again, with all its spans.  So every issue with the lambda is placed at the start of a token. -/
theorem spans_delimit {source : List Char} {lambda : LambdaExpr}
    (h : parseLambda source = .ok lambda) :
    ∃ ts, tokenize source = .ok ts ∧
      (∀ e ∈ lambda.body.parts, Delimits (byteLength source) ts e) ∧
      ∀ goal, ∀ i ∈ lambda.issues goal,
        (∃ l ∈ ts, l.span.start = i.offset) ∧ i.offset < byteLength source := by
  obtain ⟨ts, hts, hread⟩ := parseLambda_eq_ok.mp h
  obtain ⟨hplaced, hinside⟩ := placed_of_tokenize hts
  obtain ⟨a, body, hparam, hbody⟩ := readLambda_eq_ok.mp hread
  obtain ⟨used, rfl, -⟩ := readParam_sound hparam
  have hdelimits : ∀ e ∈ lambda.body.parts, Delimits (byteLength source)
      (used ++ ⟨.symbol .arrow, a⟩ :: body) e := by
    intro e he
    refine hplaced.delimits ((Rules.part_alone hbody e he).within ?_)
    exact ⟨used ++ [⟨.symbol .arrow, a⟩], [], by simp⟩
  refine ⟨_, hts, hdelimits, fun goal i hi => ?_⟩
  obtain ⟨d, hd, hoffset⟩ := LambdaExpr.offset_of_mem_issues hi
  obtain ⟨l, hl, hstart⟩ := (hdelimits d hd).starts
  have hnonempty := hplaced.nonempty l hl
  have hle := hinside l hl
  exact ⟨⟨l, hl, hstart.trans hoffset⟩, by omega⟩

/-- `x => 2 * (x.Price + 1) - 7`, where the parentheses belong to the sum. -/
def scaledPrice : LambdaExpr :=
  ⟨"x", .binary ⟨5, 26⟩ .sub
    (.binary ⟨5, 22⟩ .mul (.literal ⟨5, 6⟩ (.int 2))
      (.binary ⟨9, 22⟩ .add (.member ⟨10, 17⟩ (.name ⟨10, 11⟩ "x") "Price")
        (.literal ⟨20, 21⟩ (.int 1))))
    (.literal ⟨25, 26⟩ (.int 7))⟩

theorem scaledPrice_delimits :
    ∃ ts, tokenize "x => 2 * (x.Price + 1) - 7".toList = .ok ts ∧
      (∀ e ∈ scaledPrice.body.parts, Delimits 26 ts e) ∧
      ∀ goal, ∀ i ∈ scaledPrice.issues goal,
        (∃ l ∈ ts, l.span.start = i.offset) ∧ i.offset < 26 :=
  spans_delimit (by cbv)

end LambdaShell
