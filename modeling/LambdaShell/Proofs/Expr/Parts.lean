/-
The parts of an expression.

Every fact about an expression in this development is a fact about one node, given
the same fact about the expressions it is made of.  `children` names those, `parts`
collects them all the way down, and `children_induction` is the only induction over
expressions that is needed: arguments and record members are children like any
other, so no proof has to recurse through lists of them.

The last sections take the checks apart in the same way.  A node has no issues if its
children have none and if it keeps one rule, which depends on its form; so an
expression without issues is made of expressions without issues.
-/
import LambdaShell.Expr.Typing

namespace LambdaShell

namespace Expr

/-! ### Children -/

/-- The expressions a node is made of, left to right. -/
def children : Expr → List Expr
  | literal .. | name .. => []
  | member _ target _ => [target]
  | method _ target _ args => target :: args
  | math _ _ args => args
  | cast _ _ operand | unary _ _ operand => [operand]
  | binary _ _ l r => [l, r]
  | conditional _ test yes no => [test, yes, no]
  | record _ members => members.map (·.2)

theorem sizeOf_lt_of_mem_children {e c : Expr} (h : c ∈ e.children) : sizeOf c < sizeOf e := by
  cases e with
  | literal => simp [children] at h
  | name => simp [children] at h
  | member s target n =>
      rw [List.mem_singleton.mp h, member.sizeOf_spec]
      omega
  | method s target n args =>
      rw [method.sizeOf_spec]
      rcases List.mem_cons.mp h with rfl | h
      · omega
      · have := List.sizeOf_lt_of_mem h
        omega
  | math s f args =>
      have := List.sizeOf_lt_of_mem (show c ∈ args from h)
      rw [math.sizeOf_spec]
      omega
  | cast s t operand =>
      rw [List.mem_singleton.mp h, cast.sizeOf_spec]
      omega
  | unary s op operand =>
      rw [List.mem_singleton.mp h, unary.sizeOf_spec]
      omega
  | binary s op l r =>
      simp only [children, List.mem_cons, List.not_mem_nil, or_false] at h
      rw [binary.sizeOf_spec]
      rcases h with rfl | rfl
      · omega
      · omega
  | conditional s test yes no =>
      simp only [children, List.mem_cons, List.not_mem_nil, or_false] at h
      rw [conditional.sizeOf_spec]
      rcases h with rfl | rfl | rfl
      · omega
      · omega
      · omega
  | record s members =>
      obtain ⟨⟨n, c'⟩, hm, rfl⟩ := List.mem_map.mp h
      have := List.sizeOf_lt_of_mem hm
      rw [Prod.mk.sizeOf_spec] at this
      rw [record.sizeOf_spec]
      show sizeOf c' < _
      omega

/-- What holds of an expression as soon as it holds of its children holds of every
expression. -/
theorem children_induction {P : Expr → Prop} (h : ∀ e, (∀ c ∈ e.children, P c) → P e) :
    ∀ e, P e := by
  have key : ∀ n e, sizeOf e < n → P e := by
    intro n
    induction n with
    | zero => intro e he; omega
    | succ n ih =>
        intro e he
        refine h e fun c hc => ih c ?_
        have := sizeOf_lt_of_mem_children hc
        omega
  exact fun e => key _ e (Nat.lt_succ_self _)

/-! ### Parts -/

mutual

/-- An expression and everything it is made of. -/
def parts : Expr → List Expr
  | e@(literal ..) | e@(name ..) => [e]
  | e@(member _ target _) => e :: target.parts
  | e@(method _ target _ args) => e :: (target.parts ++ partsOfArgs args)
  | e@(math _ _ args) => e :: partsOfArgs args
  | e@(cast _ _ operand) | e@(unary _ _ operand) => e :: operand.parts
  | e@(binary _ _ l r) => e :: (l.parts ++ r.parts)
  | e@(conditional _ test yes no) => e :: (test.parts ++ yes.parts ++ no.parts)
  | e@(record _ members) => e :: partsOfMembers members

/-- The parts of all arguments. -/
def partsOfArgs : List Expr → List Expr
  | [] => []
  | e :: es => e.parts ++ partsOfArgs es

/-- The parts of the values of all record members. -/
def partsOfMembers : List (String × Expr) → List Expr
  | [] => []
  | (_, e) :: ms => e.parts ++ partsOfMembers ms

end

theorem partsOfArgs_eq (es : List Expr) : partsOfArgs es = es.flatMap parts := by
  induction es with
  | nil => rfl
  | cons e es ih => rw [partsOfArgs, ih, List.flatMap_cons]

theorem partsOfMembers_eq (ms : List (String × Expr)) :
    partsOfMembers ms = (ms.map (·.2)).flatMap parts := by
  induction ms with
  | nil => rfl
  | cons m ms ih =>
      obtain ⟨n, e⟩ := m
      rw [partsOfMembers, ih, List.map_cons, List.flatMap_cons]

theorem parts_eq (e : Expr) : e.parts = e :: e.children.flatMap parts := by
  cases e <;>
    simp [parts, children, partsOfArgs_eq, partsOfMembers_eq]

/-- A part of an expression is the expression or a part of a child. -/
theorem mem_parts {e whole : Expr} :
    e ∈ whole.parts ↔ e = whole ∨ ∃ c ∈ whole.children, e ∈ c.parts := by
  rw [parts_eq, List.mem_cons, List.mem_flatMap]

theorem self_mem_parts (e : Expr) : e ∈ e.parts := mem_parts.mpr (Or.inl rfl)

/-- What passes from an expression to its children passes to all its parts. -/
theorem parts_closed {P : Expr → Prop} (hstep : ∀ e, P e → ∀ c ∈ e.children, P c) :
    ∀ whole, P whole → ∀ e ∈ whole.parts, P e := by
  intro whole
  induction whole using children_induction with
  | h whole ih =>
      intro hw e he
      rcases mem_parts.mp he with rfl | ⟨c, hc, hec⟩
      · exact hw
      · exact ih c hc (hstep whole hw c hc) e hec

/-- The children of a part are parts. -/
theorem child_mem_parts :
    ∀ {whole e c : Expr}, e ∈ whole.parts → c ∈ e.children → c ∈ whole.parts := by
  intro whole
  induction whole using children_induction with
  | h whole ih =>
      intro e c he hc
      rcases mem_parts.mp he with rfl | ⟨d, hd, hed⟩
      · exact mem_parts.mpr (Or.inr ⟨c, hc, self_mem_parts c⟩)
      · exact mem_parts.mpr (Or.inr ⟨d, hd, ih d hd hed hc⟩)

/-! ### Checking the children -/

theorem types_eq_map (es : List Expr) : types es = es.map type := by
  induction es with
  | nil => rfl
  | cons e es ih => rw [types, ih, List.map_cons]

theorem argIssues_eq_nil {param : String} {refusal : Ty → Option Cause} {es : List Expr} :
    argIssues param refusal es = [] ↔
      ∀ e ∈ es, e.issues param = [] ∧ refusal e.type = none := by
  induction es with
  | nil => simp [argIssues]
  | cons e es ih =>
      have hown : ((refusal e.type).map e.issueAt).getD [] = [] ↔ refusal e.type = none := by
        cases refusal e.type <;> simp [issueAt]
      simp [argIssues, ih, hown, and_assoc]

theorem recordIssues_eq_nil {param : String} {ms : List (String × Expr)} :
    ∀ {seen : List String}, recordIssues param seen ms = [] →
      ∀ e ∈ ms.map (·.2), e.issues param = [] := by
  induction ms with
  | nil => intro seen _ e he; simp at he
  | cons m ms ih =>
      obtain ⟨n, d⟩ := m
      intro seen h e he
      simp only [recordIssues, List.append_eq_nil_iff] at h
      rcases List.mem_cons.mp he with rfl | he
      · exact h.1.2
      · exact ih h.2 e he

/-- No two members of a record without issues have one name. -/
theorem nodup_of_recordIssues {param : String} {ms : List (String × Expr)} :
    ∀ {seen : List String}, recordIssues param seen ms = [] →
      (ms.map (·.1)).Nodup ∧ ∀ n ∈ ms.map (·.1), n ∉ seen := by
  induction ms with
  | nil => exact fun _ => ⟨List.nodup_nil, List.forall_mem_nil _⟩
  | cons m ms ih =>
      obtain ⟨n, d⟩ := m
      intro seen h
      simp only [recordIssues, List.append_eq_nil_iff] at h
      obtain ⟨⟨hn, -⟩, hrest⟩ := h
      obtain ⟨hnodup, hfresh⟩ := ih hrest
      have hseen : n ∉ seen := by
        intro hmem
        rw [if_pos (List.contains_iff_mem.mpr hmem)] at hn
        cases hn
      refine ⟨List.nodup_cons.mpr ⟨fun hmem => hfresh n hmem List.mem_cons_self, hnodup⟩, ?_⟩
      refine List.forall_mem_cons.mpr ⟨hseen, fun k hk hmem => ?_⟩
      exact hfresh k hk (List.mem_cons_of_mem n hmem)

/-! ### Checking one node

A node has no issues if its children have none and it keeps the rule of its form. -/

variable {param n : String} {s : Span} {e c l r test yes no : Expr} {args : List Expr}

theorem issues_member : (member s e n).issues param = [] ↔ e.issues param = [] ∧
    (e.type = .dynamic ∨ e.type = .record ∨ (e.type = .str ∧ n = "Length")) := by
  show e.issues param ++ (member s e n).memberIssues e.type n = [] ↔ _
  rw [List.append_eq_nil_iff]
  cases e.type <;> simp [memberIssues, issueAt]

theorem textArgument_eq_none {t : Ty} :
    textArgument n t = none ↔ n = "ToString" ∨ t.admits .str = true := by
  unfold textArgument
  by_cases hn : n = "ToString"
  · simp [hn]
  · cases t.admits .str <;> simp [hn]

theorem numberArgument_eq_none {t : Ty} : numberArgument t = none ↔ t.admitsNumber = true := by
  unfold numberArgument
  split <;> simp_all

theorem methodIssues_eq_nil {t : Ty} {count : Nat} :
    e.methodIssues t n count = [] ↔ (n = "ToString" ∨ t.admits .str = true) ∧
      ∃ answer, methodSignature? n = some (count, answer) := by
  unfold methodIssues
  cases hsig : methodSignature? n with
  | none => simp [issueAt]
  | some signature =>
      obtain ⟨arity, answer⟩ := signature
      have hcount : (∃ a, some (arity, answer) = some (count, a)) ↔ count = arity := by
        constructor
        · rintro ⟨a, h⟩
          cases h
          rfl
        · rintro rfl
          exact ⟨answer, rfl⟩
      rw [List.append_eq_nil_iff, hcount]
      refine and_congr ?_ ?_
      · by_cases hn : n = "ToString"
        · simp [hn]
        · cases t.admits .str <;> simp [hn, issueAt]
      · by_cases hne : count = arity
        · simp [hne]
        · simp [hne, issueAt]

theorem issues_method : (method s e n args).issues param = [] ↔ e.issues param = [] ∧
    (∀ a ∈ args, a.issues param = [] ∧ (n = "ToString" ∨ a.type.admits .str = true)) ∧
      (n = "ToString" ∨ e.type.admits .str = true) ∧
        ∃ answer, methodSignature? n = some (args.length, answer) := by
  show e.issues param ++ argIssues param (textArgument n) args
    ++ (method s e n args).methodIssues e.type n args.length = [] ↔ _
  rw [List.append_eq_nil_iff, List.append_eq_nil_iff, argIssues_eq_nil, methodIssues_eq_nil,
    and_assoc]
  simp only [textArgument_eq_none]

theorem mathIssues_eq_nil {count : Nat} :
    e.mathIssues n count = [] ↔ ∃ arities, mathArities? n = some arities ∧ count ∈ arities := by
  unfold mathIssues
  cases mathArities? n <;> simp [issueAt]

theorem issues_math : (math s n args).issues param = [] ↔
    (∀ a ∈ args, a.issues param = [] ∧ a.type.admitsNumber = true) ∧
      ∃ arities, mathArities? n = some arities ∧ args.length ∈ arities := by
  show argIssues param numberArgument args
    ++ (math s n args).mathIssues n args.length = [] ↔ _
  rw [List.append_eq_nil_iff, argIssues_eq_nil, mathIssues_eq_nil]
  simp only [numberArgument_eq_none]

theorem issues_cast {target : CastType} : (cast s target e).issues param = [] ↔
    e.issues param = [] ∧ target.isPossible e.type = true := by
  refine List.append_eq_nil_iff.trans (and_congr_right fun _ => ?_)
  cases target.isPossible e.type <;> simp [issueAt]

theorem issues_unary {op : UnaryOp} : (unary s op e).issues param = [] ↔
    e.issues param = [] ∧ ∃ t, op.resultType? e.type = some t := by
  refine List.append_eq_nil_iff.trans (and_congr_right fun _ => ?_)
  cases op.resultType? e.type <;> simp [issueAt]

theorem issues_binary {op : BinaryOp} : (binary s op l r).issues param = [] ↔
    (l.issues param = [] ∧ r.issues param = []) ∧
      ∃ t, op.resultType? l.type r.type = some t := by
  refine List.append_eq_nil_iff.trans (and_congr List.append_eq_nil_iff ?_)
  cases op.resultType? l.type r.type <;> simp [issueAt]

theorem testIssues_eq_nil : test.testIssues = [] ↔ test.type.admits .bool = true := by
  unfold testIssues
  cases test.type.admits .bool <;> simp [issueAt]

theorem issues_conditional : (conditional s test yes no).issues param = [] ↔
    test.issues param = [] ∧ test.type.admits .bool = true ∧ yes.issues param = [] ∧
      no.issues param = [] := by
  show test.issues param ++ test.testIssues ++ yes.issues param ++ no.issues param = [] ↔ _
  rw [List.append_eq_nil_iff, List.append_eq_nil_iff, List.append_eq_nil_iff,
    testIssues_eq_nil]
  constructor
  · rintro ⟨⟨⟨htest, hbool⟩, hyes⟩, hno⟩
    exact ⟨htest, hbool, hyes, hno⟩
  · rintro ⟨htest, hbool, hyes, hno⟩
    exact ⟨⟨⟨htest, hbool⟩, hyes⟩, hno⟩

/-- An expression without issues is made of expressions without issues. -/
theorem issues_child (h : e.issues param = []) (hc : c ∈ e.children) :
    c.issues param = [] := by
  cases e with
  | literal => simp [children] at hc
  | name => simp [children] at hc
  | member s e n =>
      rw [List.mem_singleton.mp hc]
      exact (issues_member.mp h).1
  | method s e n args =>
      obtain ⟨htarget, hargs, -⟩ := issues_method.mp h
      rcases List.mem_cons.mp hc with rfl | hc
      · exact htarget
      · exact (hargs c hc).1
  | math s f args => exact ((issues_math.mp h).1 c hc).1
  | cast s target e =>
      rw [List.mem_singleton.mp hc]
      exact (issues_cast.mp h).1
  | unary s op e =>
      rw [List.mem_singleton.mp hc]
      exact (issues_unary.mp h).1
  | binary s op l r =>
      obtain ⟨⟨hl, hr⟩, -⟩ := issues_binary.mp h
      simp only [children, List.mem_cons, List.not_mem_nil, or_false] at hc
      rcases hc with rfl | rfl
      · exact hl
      · exact hr
  | conditional s test yes no =>
      obtain ⟨htest, -, hyes, hno⟩ := issues_conditional.mp h
      simp only [children, List.mem_cons, List.not_mem_nil, or_false] at hc
      rcases hc with rfl | rfl | rfl
      · exact htest
      · exact hyes
      · exact hno
  | record s ms => exact recordIssues_eq_nil h c hc

theorem issues_part {whole : Expr} (h : whole.issues param = []) :
    ∀ e ∈ whole.parts, e.issues param = [] :=
  parts_closed (fun _ he _ hc => issues_child he hc) whole h

end Expr

end LambdaShell
