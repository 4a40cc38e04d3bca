/-
The lexer drops nothing but white space.

Every character of a text is white space or belongs to a piece, and each piece is what is
scanned where it begins.  If all pieces are tokens, white space is all that stands between
them, and each of them, cut out of the text, is a text of this one token.  If there are flaws,
they are reported in the order of the text, each at a character that is not white space.
-/
import Mathlib
import LambdaShell.Proofs.Expr.Confined
import LambdaShell.Proofs.Expr.Spans

namespace LambdaShell

open Text Lexer

/-! ### Pieces -/

/-- A piece is what is scanned where it begins, and it does not begin with white space. -/
theorem pieces_scanned (start : Nat) (cs : List Char) : ∀ p ∈ pieces start cs,
    ∃ front c rest, cs = front ++ c :: rest ∧ isGap c = false ∧
      p = ⟨(scan c rest).result, ⟨start + byteLength front,
        start + byteLength front + byteLength (scan c rest).taken⟩⟩ := by
  fun_induction pieces start cs with
  | case1 => exact List.forall_mem_nil _
  | case2 start c cs hc ih =>
      intro p hp
      obtain ⟨front, d, rest, rfl, hd, rfl⟩ := ih p hp
      refine ⟨c :: front, d, rest, rfl, hd, ?_⟩
      rw [byteLength_cons, Nat.add_assoc]
  | case3 start c cs hc s stop ih =>
      refine List.forall_mem_cons.mpr ⟨⟨[], c, cs, rfl, Bool.eq_false_iff.mpr hc, rfl⟩, ?_⟩
      intro p hp
      obtain ⟨front, d, rest, hdrop, hd, rfl⟩ := ih p hp
      obtain ⟨more, behind, htaken, rfl⟩ := Sliced.taken_cons c cs
      have hbehind : behind = front ++ d :: rest := by
        rw [← hdrop]
        show behind = (more ++ behind).drop ((scan c (more ++ behind)).taken.length - 1)
        rw [htaken]
        exact List.drop_left.symm
      have hstop : stop + byteLength front = start + byteLength (c :: more ++ front) := by
        show start + byteLength (scan c (more ++ behind)).taken + _ = _
        rw [htaken, byteLength_append, Nat.add_assoc]
      refine ⟨c :: more ++ front, d, rest, by rw [hbehind]; simp, hd, ?_⟩
      rw [hstop]

/-- Every character is white space or belongs to a piece. -/
theorem gap_or_piece (start : Nat) (cs : List Char) {front rest : List Char} {c : Char}
    (hcs : cs = front ++ c :: rest) : isGap c = true ∨
      ∃ p ∈ pieces start cs, p.span.start ≤ start + byteLength front ∧
        start + byteLength front < p.span.stop := by
  fun_induction pieces start cs generalizing front with
  | case1 => exact absurd hcs (by simp)
  | case2 start d cs hd ih =>
      cases front with
      | nil =>
          obtain ⟨rfl, -⟩ := List.cons.inj hcs
          exact Or.inl hd
      | cons e front =>
          obtain ⟨rfl, rfl⟩ := List.cons.inj hcs
          rcases ih rfl with hgap | ⟨p, hp, hplace⟩
          · exact Or.inl hgap
          · refine Or.inr ⟨p, hp, ?_⟩
            rw [byteLength_cons]
            omega
  | case3 start d cs hd s stop =>
      rename_i ih
      obtain ⟨more, behind, htaken, rfl⟩ := Sliced.taken_cons d cs
      have hdrop : (more ++ behind).drop (s.taken.length - 1) = behind := by
        show (more ++ behind).drop ((scan d (more ++ behind)).taken.length - 1) = behind
        rw [htaken]
        exact List.drop_left
      have hstop : stop = start + byteLength (d :: more) := by
        show start + byteLength (scan d (more ++ behind)).taken = _
        rw [htaken]
      rw [hdrop] at ih ⊢
      have hlater : ∀ us, front = d :: more ++ us → behind = us ++ c :: rest → isGap c = true ∨
          ∃ p ∈ ⟨s.result, ⟨start, stop⟩⟩ :: pieces stop behind,
            p.span.start ≤ start + byteLength front ∧ start + byteLength front < p.span.stop := by
        intro us hfront hus
        rcases ih hus with hgap | ⟨p, hp, hplace⟩
        · exact Or.inl hgap
        · refine Or.inr ⟨p, List.mem_cons_of_mem _ hp, ?_⟩
          rw [hfront, byteLength_append, ← Nat.add_assoc, ← hstop]
          exact hplace
      rcases List.append_eq_append_iff.mp (show (d :: more) ++ behind = front ++ c :: rest from hcs)
        with ⟨us, hfront, hus⟩ | ⟨_ | ⟨e, us⟩, hfront, hus⟩
      · exact hlater us hfront hus
      · exact hlater [] (by simpa using hfront.symm) (by simpa using hus.symm)
      · -- the character is one of those that were taken
        obtain ⟨rfl, -⟩ := List.cons.inj hus
        refine Or.inr ⟨_, List.mem_cons_self, Nat.le_add_right _ _, ?_⟩
        show start + byteLength front < stop
        rw [hstop, hfront, byteLength_append, byteLength_cons]
        have hsize := c.utf8Size_pos
        omega

/-! ### Tokens -/

variable {source : List Char} {ts : List Lexeme} {issues : List Issue}

theorem Piece.eq_of_issue? {p : Piece} (h : p.issue? = none) :
    ∃ l, p.lexeme? = some l ∧ p = ⟨.ok l.token, l.span⟩ := by
  obtain ⟨result, span⟩ := p
  cases result with
  | ok t => exact ⟨⟨t, span⟩, rfl, rfl⟩
  | error cause => cases h

/-- A text without flaws falls into its tokens. -/
theorem pieces_of_tokenize (h : tokenize source = .ok ts) :
    pieces 0 source = ts.map fun l => ⟨.ok l.token, l.span⟩ := by
  have hpieces : ∀ ps : List Piece, ps.filterMap (·.issue?) = [] →
      ps = (ps.filterMap (·.lexeme?)).map fun l => ⟨.ok l.token, l.span⟩ := by
    intro ps
    induction ps with
    | nil => exact fun _ => rfl
    | cons p ps ih =>
        intro hnone
        obtain ⟨hp, hps⟩ := List.forall_mem_cons.mp (List.filterMap_eq_nil_iff.mp hnone)
        obtain ⟨l, hl, heq⟩ := Piece.eq_of_issue? hp
        rw [List.filterMap_cons_some hl, List.map_cons, ← heq,
          ← ih (List.filterMap_eq_nil_iff.mpr hps)]
  unfold tokenize at h
  dsimp only at h
  split at h
  · rename_i hnone
    rw [← Except.ok.inj h]
    exact hpieces _ hnone
  · cases h

/-- A token that is cut out of the text is a text of this one token. -/
theorem tokenize_alone {c : Char} {more : List Char} {t : Token} (hc : isGap c = false)
    (h : scan c more = ⟨.ok t, c :: more⟩) :
    tokenize (c :: more) = .ok [⟨t, ⟨0, byteLength (c :: more)⟩⟩] := by
  have hpieces : pieces 0 (c :: more) = [⟨.ok t, ⟨0, byteLength (c :: more)⟩⟩] := by
    rw [pieces_token hc, h, Nat.zero_add, List.length_cons, Nat.add_sub_cancel,
      List.drop_length, pieces]
  unfold tokenize
  rw [hpieces]
  rfl

/-- The tokens cover the text but for white space. -/
structure Covers (source : List Char) (ts : List Lexeme) : Prop where
  nonempty : ∀ l ∈ ts, l.span.start < l.span.stop
  /-- They stand one behind the other. -/
  ordered : ts.Pairwise fun l r => l.span.start < r.span.start ∧ l.span.stop ≤ r.span.start
  /-- A character that is in none of them is white space. -/
  gaps : ∀ front c rest, source = front ++ c :: rest →
    (∀ l ∈ ts, ¬ (l.span.start ≤ byteLength front ∧ byteLength front < l.span.stop)) →
      c ∈ [' ', '\t', '\r', '\n', '\x0c']
  /-- The text in the span of a token is read as that token and nothing else. -/
  alone : ∀ l ∈ ts, ∃ text, slice? l.span.start l.span.stop source = some text ∧
    tokenize text = .ok [⟨l.token, ⟨0, byteLength text⟩⟩]

/-- The issues are about characters of the text, in their order, that are not white space. -/
structure PointsAt (source : List Char) (issues : List Issue) : Prop where
  ne_nil : issues ≠ []
  ordered : issues.Pairwise fun i j => i.diagnostic.column < j.diagnostic.column
  /-- A column is the number of the byte, counted from one, at which a character begins. -/
  solid : ∀ i ∈ issues, ∃ front c rest, source = front ++ c :: rest ∧
    i.diagnostic.column = byteLength front + 1 ∧ c ∉ [' ', '\t', '\r', '\n', '\x0c']

theorem isGap_iff {c : Char} : isGap c = true ↔ c ∈ [' ', '\t', '\r', '\n', '\x0c'] := by
  simp [isGap, or_assoc]

theorem covers_of_tokenize (h : tokenize source = .ok ts) : Covers source ts := by
  obtain ⟨hplaced, -⟩ := placed_of_tokenize h
  have hpieces := pieces_of_tokenize h
  refine ⟨hplaced.nonempty, ?_, fun front c rest hsource hnone => ?_, fun l hl => ?_⟩
  · refine hplaced.ordered.imp_of_mem fun {l r} hl _ horder => ?_
    have hnonempty := hplaced.nonempty l hl
    omega
  · refine isGap_iff.mp ((gap_or_piece 0 source hsource).resolve_right ?_)
    rintro ⟨p, hp, hplace⟩
    rw [hpieces] at hp
    obtain ⟨l, hl, rfl⟩ := List.mem_map.mp hp
    rw [Nat.zero_add] at hplace
    exact hnone l hl hplace
  · have hmem : (⟨.ok l.token, l.span⟩ : Piece) ∈ pieces 0 source := by
      rw [hpieces]
      exact List.mem_map_of_mem hl
    obtain ⟨front, c, cs, rfl, hc, heq⟩ := pieces_scanned 0 source _ hmem
    obtain ⟨more, rest, htaken, rfl⟩ := Sliced.taken_cons c cs
    rw [htaken, Nat.zero_add] at heq
    obtain ⟨hresult, hspan⟩ := Piece.mk.inj heq
    refine ⟨c :: more, ?_, ?_⟩
    · rw [hspan]
      exact slice?_append front (c :: more) rest
    · refine tokenize_alone hc ?_
      have hscan : scan c (more ++ rest) = ⟨.ok l.token, c :: more⟩ := by
        rw [hresult, ← htaken]
      rwa [scan_of_front (List.prefix_append more rest) (htaken ▸ List.prefix_refl _)]

/-- The flaws of a text are those of its pieces. -/
theorem issues_of_tokenize (h : tokenize source = .error issues) :
    issues ≠ [] ∧ (pieces 0 source).filterMap (·.issue?) = issues := by
  unfold tokenize at h
  dsimp only at h
  split at h
  · cases h
  · rename_i hne
    obtain rfl := Except.error.inj h
    exact ⟨hne, rfl⟩

theorem issue?_column {p : Piece} {i : Issue} (h : p.issue? = some i) :
    i.diagnostic.column = p.span.start + 1 := by
  unfold Piece.issue? at h
  split at h
  · cases h
  · cases h
    rfl

theorem pointsAt_of_tokenize (h : tokenize source = .error issues) : PointsAt source issues := by
  obtain ⟨hne, rfl⟩ := issues_of_tokenize h
  obtain ⟨hplaces, hordered⟩ := pieces_placed 0 source
  refine ⟨hne, ?_, fun i hi => ?_⟩
  · refine List.pairwise_filterMap.mpr (hordered.imp_of_mem fun {p q} hp _ horder i hi j hj => ?_)
    rw [issue?_column hi, issue?_column hj]
    have hplace := hplaces p hp
    omega
  · obtain ⟨p, hp, hissue⟩ := List.mem_filterMap.mp hi
    obtain ⟨front, c, rest, hsource, hc, rfl⟩ := pieces_scanned 0 source p hp
    refine ⟨front, c, rest, hsource, ?_, fun hgap => ?_⟩
    · rw [issue?_column hissue, Nat.zero_add]
    · rw [isGap_iff.mpr hgap] at hc
      cases hc

/-- **Nothing but white space is dropped.**  The tokens of a text without flaws stand one behind
the other with nothing but white space around them, and each is read alike where it stands
alone.  The flaws of any other text are reported in its order, each at a character of it that
is not white space. -/
theorem tokenize_covers_or_points (source : List Char) :
    match tokenize source with
    | .ok ts => Covers source ts
    | .error issues => PointsAt source issues := by
  split
  · rename_i ts h
    exact covers_of_tokenize h
  · rename_i issues h
    exact pointsAt_of_tokenize h

end LambdaShell
