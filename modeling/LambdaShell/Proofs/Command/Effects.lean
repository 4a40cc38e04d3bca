/-
What a command does.

A command puts other items in the place of the present ones, says something of them, moves
along the timeline, or fails.  `Yields`, `Says` and `Fails` tell command by command which
items, what, and why; `Runs` tells what becomes of the timeline.  `execute_runs` shows that
nothing else happens, and it is the one place where a command that runs is taken apart: what
is proved of commands later on is proved by the cases of these four.
-/
import LambdaShell.Execution
import LambdaShell.Proofs.Items.Members

namespace LambdaShell

/-- The answer tells of a change of the present sequence, or of a move that led nowhere. -/
def Answer.isMove : Answer → Bool
  | updated _ | nothingToUndo | nothingToRedo => true
  | _ => false

namespace Command

variable {dest : Destination} {t next : Timeline} {items : List Value} {c : Command} {s : String}
  {l : Lambda} {v : Value} {e : EvalError}

/-! ### The lambda of a command -/

/-- The text of the lambda that a command carries, if it carries one. -/
def lambda? : Command → Option String
  | filter l | select l | orderBy l _ | groupBy l _ => some l
  | any l | all l | count l | first l | last l => l
  | _ => none

/-- What a command uses its lambda for. -/
def goal : Command → Goal
  | select _ | orderBy _ _ | groupBy _ _ => .any
  | _ => .boolean

/-- What a command makes of an item with its lambda: a verdict, or whatever value it is. -/
def applied (c : Command) (l : Lambda) (v : Value) : Outcome? Value :=
  match c.goal with
  | .boolean => (l.test v).map .bool
  | .any => l.call v

/-- How the command fails where its lambda fails with `e`. -/
def failure (c : Command) (e : EvalError) : Failure := .ofEval c.name c.sample e

/-! ### Results and failures -/

/-- What a command puts in the place of the items. -/
inductive Yields (items : List Value) : Command → List Value → Prop
  | filter {s : String} {p : Lambda} {kept : List Value}
      (hp : Lambda.compile s.toList .boolean = .ok p) (h : Items.filter p.test items = .ok kept) :
      Yields items (.filter s) kept
  | select {s : String} {f : Lambda} {projected : List Value}
      (hf : Lambda.compile s.toList .any = .ok f) (h : Items.select f.call items = .ok projected) :
      Yields items (.select s) projected
  | orderBy {s : String} {descending : Bool} {f : Lambda} {sorted : List Value}
      (hf : Lambda.compile s.toList .any = .ok f)
      (h : Items.orderBy f.call descending items = .ok sorted) :
      Yields items (.orderBy s descending) sorted
  | groupBy {s : String} {aggregate : Aggregate} {f : Lambda} {groups : Groups}
      (hf : Lambda.compile s.toList .any = .ok f) (h : Items.groupBy f.call items = .ok groups) :
      Yields items (.groupBy s aggregate) (groups.rows aggregate)
  | take {n : Nat} : Yields items (.take n) (items.take n)
  | skip {n : Nat} : Yields items (.skip n) (items.drop n)
  | distinct : Yields items .distinct (Items.distinct items)

/-- What a command says of the items, which stay. -/
inductive Says (dest : Destination) (items : List Value) : Command → Answer → Prop
  | notEmpty : Says dest items (.any none) (.bool !items.isEmpty)
  | any {s : String} {p : Lambda} {b : Bool} (hp : Lambda.compile s.toList .boolean = .ok p)
      (h : Items.any p.test items = .ok b) : Says dest items (.any (some s)) (.bool b)
  | empty : Says dest items (.all none) (.bool items.isEmpty)
  | all {s : String} {p : Lambda} {b : Bool} (hp : Lambda.compile s.toList .boolean = .ok p)
      (h : Items.all p.test items = .ok b) : Says dest items (.all (some s)) (.bool b)
  | length : Says dest items (.count none) (.count items.length)
  | count {s : String} {p : Lambda} {kept : List Value}
      (hp : Lambda.compile s.toList .boolean = .ok p) (h : Items.filter p.test items = .ok kept) :
      Says dest items (.count (some s)) (.count kept.length)
  | head : Says dest items (.first none) (.item (items.head?.getD .null))
  | first {s : String} {p : Lambda} {v? : Option Value}
      (hp : Lambda.compile s.toList .boolean = .ok p) (h : Items.find p.test items = .ok v?) :
      Says dest items (.first (some s)) (.item (v?.getD .null))
  | final : Says dest items (.last none) (.item (items.getLast?.getD .null))
  | last {s : String} {p : Lambda} {v? : Option Value}
      (hp : Lambda.compile s.toList .boolean = .ok p)
      (h : Items.find p.test items.reverse = .ok v?) :
      Says dest items (.last (some s)) (.item (v?.getD .null))
  | sum : Says dest items .sum (.number (Items.sum items))
  | average : Says dest items .average (.number (Items.average items))
  | min : Says dest items .min (.item (Items.least items))
  | max : Says dest items .max (.item (Items.greatest items))
  | exportTo {format : ExportFormat} (h : dest.refusal = none) :
      Says dest items (.exportTo format) (.exported (.ofItems dest format items))
  | help : Says dest items .help .help
  | exit : Says dest items .exit .exit

/-- Why a command fails. -/
inductive Fails (dest : Destination) (items : List Value) : Command → Failure → Prop
  /-- Its lambda does not compile. -/
  | compile {c : Command} {s : String} {e : CompileError} (hs : c.lambda? = some s)
      (h : Lambda.compile s.toList c.goal = .error e) :
      Fails dest items c (.ofCompile c.name c.sample e)
  /-- Its lambda fails on an item. -/
  | eval {c : Command} {s : String} {l : Lambda} {v : Value} {e : EvalError}
      (hs : c.lambda? = some s) (hl : Lambda.compile s.toList c.goal = .ok l) (hv : v ∈ items)
      (h : c.applied l v = .error e) : Fails dest items c (c.failure e)
  /-- The directory takes no file. -/
  | write {format : ExportFormat} {reason : String} (h : dest.refusal = some reason) :
      Fails dest items (.exportTo format) (.exportFailed reason)

theorem Yields.isMutating {next : List Value} (h : c.Yields items next) : c.isMutating = true := by
  cases h <;> rfl

theorem Says.isMutating {answer : Answer} (h : c.Says dest items answer) :
    c.isMutating = false := by
  cases h <;> rfl

theorem Yields.compiles {next : List Value} (h : c.Yields items next) (hs : c.lambda? = some s) :
    ∃ l, Lambda.compile s.toList c.goal = .ok l := by
  cases h with
  | filter hl => exact ⟨_, Option.some.inj hs ▸ hl⟩
  | select hl => exact ⟨_, Option.some.inj hs ▸ hl⟩
  | orderBy hl => exact ⟨_, Option.some.inj hs ▸ hl⟩
  | groupBy hl => exact ⟨_, Option.some.inj hs ▸ hl⟩
  | _ => cases hs

theorem Says.compiles {answer : Answer} (h : c.Says dest items answer)
    (hs : c.lambda? = some s) : ∃ l, Lambda.compile s.toList c.goal = .ok l := by
  cases h with
  | any hl => exact ⟨_, Option.some.inj hs ▸ hl⟩
  | all hl => exact ⟨_, Option.some.inj hs ▸ hl⟩
  | count hl => exact ⟨_, Option.some.inj hs ▸ hl⟩
  | first hl => exact ⟨_, Option.some.inj hs ▸ hl⟩
  | last hl => exact ⟨_, Option.some.inj hs ▸ hl⟩
  | _ => cases hs

/-! ### Queries -/

theorem query_of_compile {α : Type} {goal : Goal} {ask : Lambda → Outcome? α}
    (hl : Lambda.compile s.toList goal = .ok l) :
    c.query s goal ask = (ask l).mapError c.failure := by
  rw [query, hl]
  dsimp only
  cases ask l with
  | error e => rfl
  | ok a => rfl

theorem query_eq_ok_iff {α : Type} {goal : Goal} {ask : Lambda → Outcome? α} {a : α} :
    c.query s goal ask = .ok a ↔ ∃ l, Lambda.compile s.toList goal = .ok l ∧ ask l = .ok a := by
  constructor
  · intro h
    unfold query at h
    split at h
    · cases h
    · rename_i l hl
      split at h
      · cases h
      · rename_i b hb
        cases h
        exact ⟨l, hl, hb⟩
  · rintro ⟨l, hl, ha⟩
    rw [query_of_compile hl, ha]
    rfl

/-- A query fails as its lambda does, in compiling or on an item. -/
theorem fails_of_query {α : Type} {ask : Lambda → Outcome? α} {f : Failure}
    (hs : c.lambda? = some s)
    (hask : ∀ l, Outcome.FailsOnly (fun e => ∃ v ∈ items, c.applied l v = .error e) (ask l))
    (h : c.query s c.goal ask = .error f) : c.Fails dest items f := by
  cases hl : Lambda.compile s.toList c.goal with
  | error e =>
      rw [query, hl] at h
      cases h
      exact .compile hs hl
  | ok l =>
      rw [query_of_compile hl] at h
      cases ha : ask l with
      | error e =>
          rw [ha] at h
          cases h
          obtain ⟨v, hv, he⟩ := hask l e ha
          exact .eval hs hl hv he
      | ok a =>
          rw [ha] at h
          cases h

theorem failsOnly_test (hgoal : c.goal = .boolean) (l : Lambda) (hv : v ∈ items) :
    Outcome.FailsOnly (fun e => ∃ v ∈ items, c.applied l v = .error e) (l.test v) := by
  intro e he
  refine ⟨v, hv, ?_⟩
  rw [applied, hgoal]
  dsimp only
  rw [he]
  rfl

theorem failsOnly_call (hgoal : c.goal = .any) (l : Lambda) (hv : v ∈ items) :
    Outcome.FailsOnly (fun e => ∃ v ∈ items, c.applied l v = .error e) (l.call v) := by
  intro e he
  refine ⟨v, hv, ?_⟩
  rw [applied, hgoal]
  exact he

/-! ### Reports -/

section Reports

variable {α : Type} {source : Option String} {plain : α}
  {ask : (Value → Outcome? Bool) → Outcome? α} {report : α → Answer}

/-- What a command says is the plain answer, or that of a compiled predicate if it has one. -/
theorem say_eq_iff {answer : Answer} :
    Effect.say ((c.queryIfGiven source plain ask).map report) = .say (.ok answer) ↔
      (source = none ∧ report plain = answer) ∨
        ∃ s p a, source = some s ∧ Lambda.compile s.toList .boolean = .ok p ∧
          ask p.test = .ok a ∧ report a = answer := by
  rw [Effect.say.injEq, Outcome.map_eq_ok]
  cases source with
  | none =>
      constructor
      · rintro ⟨a, ha, hanswer⟩
        cases ha
        exact Or.inl ⟨rfl, hanswer⟩
      · rintro (⟨-, hanswer⟩ | ⟨s, p, a, hs, -⟩)
        · exact ⟨plain, rfl, hanswer⟩
        · cases hs
  | some s =>
      constructor
      · rintro ⟨a, ha, hanswer⟩
        obtain ⟨p, hp, ha⟩ := query_eq_ok_iff.mp ha
        exact Or.inr ⟨s, p, a, rfl, hp, ha, hanswer⟩
      · rintro (⟨hs, -⟩ | ⟨_, p, a, hs, hp, ha, hanswer⟩)
        · cases hs
        · cases hs
          exact ⟨a, query_eq_ok_iff.mpr ⟨p, hp, ha⟩, hanswer⟩

/-- A report that fails has a predicate that fails. -/
theorem fails_of_report {f : Failure} (hs : c.lambda? = source) (hgoal : c.goal = .boolean)
    (hask : ∀ {P : EvalError → Prop} {test}, (∀ v ∈ items, Outcome.FailsOnly P (test v)) →
      Outcome.FailsOnly P (ask test))
    (h : Effect.say ((c.queryIfGiven source plain ask).map report) = .say (.error f)) :
    c.Fails dest items f := by
  have hquery := Outcome.eq_error_of_map (Effect.say.inj h)
  cases source with
  | none => cases hquery
  | some s =>
      rw [queryIfGiven, ← hgoal] at hquery
      exact fails_of_query hs (fun l => hask fun v hv => failsOnly_test hgoal l hv) hquery

end Reports

/-! ### Effects -/

theorem effect_eq_replace_iff {next : List Value} :
    c.effect dest items = .replace (.ok next) ↔ c.Yields items next := by
  constructor
  · intro h
    cases c with
    | filter s =>
        obtain ⟨p, hp, h⟩ := query_eq_ok_iff.mp (Effect.replace.inj h)
        exact .filter hp h
    | select s =>
        obtain ⟨f, hf, h⟩ := query_eq_ok_iff.mp (Effect.replace.inj h)
        exact .select hf h
    | orderBy s d =>
        obtain ⟨f, hf, h⟩ := query_eq_ok_iff.mp (Effect.replace.inj h)
        exact .orderBy hf h
    | groupBy s a =>
        obtain ⟨f, hf, h⟩ := query_eq_ok_iff.mp (Effect.replace.inj h)
        obtain ⟨groups, hgroups, rfl⟩ := Outcome.map_eq_ok.mp h
        exact .groupBy hf hgroups
    | take n =>
        cases h
        exact .take
    | skip n =>
        cases h
        exact .skip
    | distinct =>
        cases h
        exact .distinct
    | _ => cases h
  · intro h
    cases h with
    | filter hp h => exact congrArg Effect.replace (query_eq_ok_iff.mpr ⟨_, hp, h⟩)
    | select hf h => exact congrArg Effect.replace (query_eq_ok_iff.mpr ⟨_, hf, h⟩)
    | orderBy hf h => exact congrArg Effect.replace (query_eq_ok_iff.mpr ⟨_, hf, h⟩)
    | groupBy hf h =>
        refine congrArg Effect.replace (query_eq_ok_iff.mpr ⟨_, hf, ?_⟩)
        exact Outcome.map_eq_ok.mpr ⟨_, h, rfl⟩
    | _ => rfl

theorem effect_eq_say_iff {answer : Answer} :
    c.effect dest items = .say (.ok answer) ↔ c.Says dest items answer := by
  constructor
  · intro h
    cases c with
    | any source =>
        rcases say_eq_iff.mp h with ⟨rfl, rfl⟩ | ⟨s, p, b, rfl, hp, hb, rfl⟩
        · exact .notEmpty
        · exact .any hp hb
    | all source =>
        rcases say_eq_iff.mp h with ⟨rfl, rfl⟩ | ⟨s, p, b, rfl, hp, hb, rfl⟩
        · exact .empty
        · exact .all hp hb
    | count source =>
        rcases say_eq_iff.mp h with ⟨rfl, rfl⟩ | ⟨s, p, n, rfl, hp, hn, rfl⟩
        · exact .length
        · obtain ⟨kept, hkept, rfl⟩ := Outcome.map_eq_ok.mp hn
          exact .count hp hkept
    | first source =>
        rcases say_eq_iff.mp h with ⟨rfl, rfl⟩ | ⟨s, p, v?, rfl, hp, hv, rfl⟩
        · exact .head
        · exact .first hp hv
    | last source =>
        rcases say_eq_iff.mp h with ⟨rfl, rfl⟩ | ⟨s, p, v?, rfl, hp, hv, rfl⟩
        · exact .final
        · exact .last hp hv
    | sum =>
        cases h
        exact .sum
    | average =>
        cases h
        exact .average
    | min =>
        cases h
        exact .min
    | max =>
        cases h
        exact .max
    | exportTo format =>
        cases hrefusal : dest.refusal with
        | some reason => simp [effect, export?, hrefusal] at h
        | none =>
            simp only [effect, export?, hrefusal, Effect.say.injEq, Except.ok.injEq] at h
            subst h
            exact .exportTo hrefusal
    | help =>
        cases h
        exact .help
    | exit =>
        cases h
        exact .exit
    | _ => cases h
  · intro h
    cases h with
    | any hp h => exact say_eq_iff.mpr (Or.inr ⟨_, _, _, rfl, hp, h, rfl⟩)
    | all hp h => exact say_eq_iff.mpr (Or.inr ⟨_, _, _, rfl, hp, h, rfl⟩)
    | count hp h =>
        refine say_eq_iff.mpr (Or.inr ⟨_, _, _, rfl, hp, ?_, rfl⟩)
        exact Outcome.map_eq_ok.mpr ⟨_, h, rfl⟩
    | first hp h => exact say_eq_iff.mpr (Or.inr ⟨_, _, _, rfl, hp, h, rfl⟩)
    | last hp h => exact say_eq_iff.mpr (Or.inr ⟨_, _, _, rfl, hp, h, rfl⟩)
    | exportTo h => simp [effect, export?, h]
    | _ => rfl

theorem fails_of_replace {f : Failure} (h : c.effect dest items = .replace (.error f)) :
    c.Fails dest items f := by
  cases c with
  | filter s =>
      refine fails_of_query rfl (fun l => ?_) (Effect.replace.inj h)
      exact Items.failsOnly_filter fun v hv => failsOnly_test rfl l hv
  | select s =>
      refine fails_of_query rfl (fun l => ?_) (Effect.replace.inj h)
      exact Items.failsOnly_select fun v hv => failsOnly_call rfl l hv
  | orderBy s d =>
      refine fails_of_query rfl (fun l => ?_) (Effect.replace.inj h)
      exact Items.failsOnly_orderBy d fun v hv => failsOnly_call rfl l hv
  | groupBy s a =>
      refine fails_of_query rfl (fun l => ?_) (Effect.replace.inj h)
      exact (Items.failsOnly_groupBy fun v hv => failsOnly_call rfl l hv).map _
  | _ => cases h

theorem fails_of_say {f : Failure} (h : c.effect dest items = .say (.error f)) :
    c.Fails dest items f := by
  cases c with
  | any source => exact fails_of_report rfl rfl Items.failsOnly_any h
  | all source => exact fails_of_report rfl rfl Items.failsOnly_all h
  | count source => exact fails_of_report rfl rfl (fun h => (Items.failsOnly_filter h).map _) h
  | first source => exact fails_of_report rfl rfl Items.failsOnly_find h
  | last source =>
      refine fails_of_report rfl rfl (fun h => Items.failsOnly_find fun v hv => ?_) h
      exact h v (List.mem_reverse.mp hv)
  | exportTo format =>
      cases hrefusal : dest.refusal with
      | none => simp [effect, export?, hrefusal] at h
      | some reason =>
          simp only [effect, export?, hrefusal, Effect.say.injEq, Except.error.injEq] at h
          subst h
          exact .write hrefusal
  | _ => cases h

theorem effect_undo (h : c.effect dest items = .undo) : c = .undo := by
  cases c with
  | undo => rfl
  | _ => cases h

theorem effect_redo (h : c.effect dest items = .redo) : c = .redo := by
  cases c with
  | redo => rfl
  | _ => cases h

theorem effect_reset (h : c.effect dest items = .reset) : c = .reset := by
  cases c with
  | reset => rfl
  | _ => cases h

/-! ### Runs -/

/-- How a command runs on a timeline. -/
inductive Runs (dest : Destination) (t : Timeline) :
    Command → EStateM.Result Failure Timeline Answer → Prop
  | replaced {c : Command} {next : List Value} (h : c.Yields t.current next) :
      Runs dest t c (.ok (.updated .applied) (t.push next))
  | said {c : Command} {answer : Answer} (h : c.Says dest t.current answer) :
      Runs dest t c (.ok answer t)
  | undone {before : Timeline} (h : t.undo? = some before) :
      Runs dest t .undo (.ok (.updated .undone) before)
  | notUndone (h : t.undo? = none) : Runs dest t .undo (.ok .nothingToUndo t)
  | redone {after : Timeline} (h : t.redo? = some after) :
      Runs dest t .redo (.ok (.updated .redone) after)
  | notRedone (h : t.redo? = none) : Runs dest t .redo (.ok .nothingToRedo t)
  | reset : Runs dest t .reset (.ok (.updated .reset) t.reset)
  /-- What fails has no result and leaves the timeline alone. -/
  | failed {c : Command} {f : Failure} (h : c.Fails dest t.current f)
      (hyields : ∀ next, ¬ c.Yields t.current next)
      (hsaid : ∀ answer, ¬ c.Says dest t.current answer) : Runs dest t c (.error f t)

theorem execute_of_effect {effect : Effect} (h : c.effect dest t.current = effect) :
    c.execute dest t = Action.perform effect t := by
  subst h
  rfl

/-- An effect that is a failure leaves no room for a result. -/
theorem runs_of_failure {f : Failure} (h : c.effect dest t.current = .replace (.error f) ∨
    c.effect dest t.current = .say (.error f)) : c.Runs dest t (.error f t) := by
  refine .failed (h.elim fails_of_replace fails_of_say) (fun next hnext => ?_)
    fun answer hanswer => ?_
  · rw [effect_eq_replace_iff.mpr hnext] at h
    rcases h with h | h <;> cases h
  · rw [effect_eq_say_iff.mpr hanswer] at h
    rcases h with h | h <;> cases h

/-- Commands run in no other way. -/
theorem execute_runs (dest : Destination) (t : Timeline) (c : Command) :
    c.Runs dest t (c.execute dest t) := by
  cases heffect : c.effect dest t.current with
  | replace r =>
      rw [execute_of_effect heffect]
      cases r with
      | ok next => exact .replaced (effect_eq_replace_iff.mp heffect)
      | error f => exact runs_of_failure (Or.inl heffect)
  | say r =>
      rw [execute_of_effect heffect]
      cases r with
      | ok answer => exact .said (effect_eq_say_iff.mp heffect)
      | error f => exact runs_of_failure (Or.inr heffect)
  | undo =>
      obtain rfl := effect_undo heffect
      obtain ⟨loaded, past, current, future⟩ := t
      cases past with
      | nil => exact .notUndone rfl
      | cons before past => exact .undone rfl
  | redo =>
      obtain rfl := effect_redo heffect
      obtain ⟨loaded, past, current, future⟩ := t
      cases future with
      | nil => exact .notRedone rfl
      | cons after future => exact .redone rfl
  | reset =>
      obtain rfl := effect_reset heffect
      exact .reset

/-- A command that fails leaves the timeline it found. -/
theorem eq_of_execute_error {f : Failure} (h : c.execute dest t = .error f next) : next = t := by
  have hruns := c.execute_runs dest t
  rw [h] at hruns
  cases hruns
  rfl

/-- Another answer than that of a change or a move is what the command says. -/
theorem says_of_execute {answer : Answer} (h : c.execute dest t = .ok answer next)
    (hmove : answer.isMove = false) : c.Says dest t.current answer ∧ next = t := by
  have hruns := c.execute_runs dest t
  rw [h] at hruns
  cases hruns with
  | said hsaid => exact ⟨hsaid, rfl⟩
  | _ => cases hmove

/-- No other command than `exit` has that answer. -/
theorem execute_exit (h : c.execute dest t = .ok .exit next) : c = .exit := by
  obtain ⟨hsaid, -⟩ := says_of_execute h rfl
  cases hsaid
  rfl

/-- A command whose lambda does not compile fails for that reason, whatever the items are. -/
theorem execute_of_compile_error {e : CompileError} (hs : c.lambda? = some s)
    (he : Lambda.compile s.toList c.goal = .error e) :
    c.execute dest t = .error (.ofCompile c.name c.sample e) t := by
  have hruns := c.execute_runs dest t
  generalize c.execute dest t = r at hruns ⊢
  cases hruns with
  | replaced h =>
      obtain ⟨l, hl⟩ := h.compiles hs
      rw [hl] at he
      cases he
  | said h =>
      obtain ⟨l, hl⟩ := h.compiles hs
      rw [hl] at he
      cases he
  | failed h =>
      cases h with
      | compile hs' he' =>
          cases hs.symm.trans hs'
          cases he.symm.trans he'
          rfl
      | eval hs' hl =>
          cases hs.symm.trans hs'
          cases he.symm.trans hl
      | write => cases hs
  | _ => cases hs

end Command

end LambdaShell
