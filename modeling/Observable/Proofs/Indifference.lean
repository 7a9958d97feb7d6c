import Mathlib.Logic.Function.Iterate
import Observable.Recipe.Script
import Observable.Proofs.Callbacks
import Observable.Proofs.Measured

/-!
# Callbacks that do not depend on how many listeners there are

A callback may measure a list, and be shown how many listeners it has. Two scripts are alike if they
perform the same operations, emit the same events and stop with the same answer, except that where
one emits the reply that it was shown, the other may emit a reply that tells of more listeners
(`Script.Alike`). A callback is indifferent if it goes on alike when it is shown one listener more
(`Script.Indifferent`).

Every callback that is written as a recipe is indifferent (`Recipe.Command.gives_indifferent`): a
reply decides there what is emitted and whether a command has failed, and whether it has failed does
not depend on the number of listeners. So a run whose operations are written (`Op.IsWritten`) has
indifferent callbacks only, however deeply commands define further ones.
-/

namespace Observable

variable {V : Type}

/-! ## Events and scripts -/

/-- An event, and the event in its place if the replies in `shown` tell of more listeners. -/
inductive Event.Tells (shown : Reply V → Prop) : Event V → Event V → Prop
  | same (e : Event V) : Tells shown e e
  | performed (word : String) {r : Reply V} (hr : shown r) (n : Nat) :
    Tells shown (.performed word r) (.performed word (Reply.more^[n] r))

/-- Two scripts that do the same, whatever the replies to the operations that they perform. -/
inductive Script.Alike (shown : Reply V → Prop) : {ρ : Role} → Script V ρ → Script V ρ → Prop
  | stop {ρ : Role} (a : Answer V ρ) : Alike shown (.stop a) (.stop a)
  | emit {ρ : Role} {e e' : Event V} {rest rest' : Script V ρ} (he : e.Tells shown e')
      (hrest : Alike shown rest rest') : Alike shown (.emit e rest) (.emit e' rest')
  | perform {ρ : Role} (op : Op V) {next next' : Reply V → Script V ρ}
      (hnext : ∀ r, Alike shown (next r) (next' r)) :
    Alike shown (.perform op next) (.perform op next')

section

variable {shown shown' : Reply V → Prop}

theorem Event.Tells.mono {e e' : Event V} (h : e.Tells shown e') (hle : ∀ r, shown r → shown' r) :
    e.Tells shown' e' := by
  cases h with
  | same => exact .same e
  | performed word hr n => exact .performed word (hle _ hr) n

theorem Event.Tells.trans {e e' e'' : Event V} (hfirst : e.Tells shown e')
    (hsecond : e'.Tells shown e'') : e.Tells shown e'' := by
  cases hfirst with
  | same => exact hsecond
  | @performed word r hr n =>
    cases hsecond with
    | same => exact .performed word hr n
    | performed _ _ k =>
      rw [← Function.iterate_add_apply]
      exact .performed word hr (k + n)

theorem Script.Alike.refl (shown : Reply V → Prop) :
    ∀ {ρ : Role} (script : Script V ρ), script.Alike shown script
  | _, .stop a => .stop a
  | _, .emit e rest => .emit (.same e) (refl shown rest)
  | _, .perform op next => .perform op fun r => refl shown (next r)

theorem Script.Alike.mono {ρ : Role} {script script' : Script V ρ}
    (h : script.Alike shown script') (hle : ∀ r, shown r → shown' r) :
    script.Alike shown' script' := by
  induction h with
  | stop a => exact .stop a
  | emit he _ ih => exact .emit (he.mono hle) ih
  | perform op _ ih => exact .perform op ih

theorem Script.Alike.trans {ρ : Role} {script script' script'' : Script V ρ}
    (hfirst : script.Alike shown script') (hsecond : script'.Alike shown script'') :
    script.Alike shown script'' := by
  induction hfirst generalizing script'' with
  | stop a => exact hsecond
  | emit he _ ih =>
    cases hsecond with
    | emit he' hrest => exact .emit (he.trans he') (ih hrest)
  | perform op _ ih =>
    cases hsecond with
    | perform _ hnext => exact .perform op fun r => ih r (hnext r)

end

/-- A script that goes on alike when a reply to it tells of one more listener, and performs only
operations whose callbacks do so as well. -/
inductive Script.Indifferent : {ρ : Role} → Script V ρ → Prop
  | stop {ρ : Role} (a : Answer V ρ) : Indifferent (.stop a)
  | emit {ρ : Role} (e : Event V) {rest : Script V ρ} (hrest : Indifferent rest) :
    Indifferent (.emit e rest)
  | perform {ρ : Role} {op : Op V} {next : Reply V → Script V ρ}
      (hgives : ∀ x, op.Gives x → Indifferent x.2) (hnext : ∀ r, Indifferent (next r))
      (hmore : ∀ r, (next r).Alike (fun x => x = r) (next r.more)) :
    Indifferent (.perform op next)

/-- An operation that a command stands for. -/
def Op.IsWritten (op : Op Value) : Prop :=
  ∃ (scope : Recipe.Scope) (literals : Kind) (command : Recipe.Command),
    op = command.op scope literals

namespace Recipe

theorem Command.withKind_indifferent {ρ : Role} (c : Command) {k : Kind → Script Value ρ}
    (hk : ∀ kind, (k kind).Indifferent) : (c.withKind k).Indifferent := by
  unfold withKind
  split
  · exact hk _
  · refine .perform (fun x hx => by cases hx) (fun r => hk _) fun r => ?_
    have hkind : seenKind r.more = seenKind r := by
      cases r with
      | done p => cases p <;> rfl
      | _ => rfl
    rw [hkind]
    exact .refl _ _

/-- Whether a command has failed does not depend on the number of listeners. -/
theorem error?_more (r : Reply Value) : r.more.error? = r.error? := by
  cases r with
  | done p => cases p <;> rfl
  | _ => rfl

mutual

theorem Step.script_indifferent {ρ : Role} {fail : Cause → Value → Script Value ρ}
    (hfail : ∀ c v, (fail c v).Indifferent) :
    ∀ (s : Step) (v : Value) {k : Value → Script Value ρ}, (∀ v, (k v).Indifferent) →
      (Step.script fail s v k).Indifferent
  | .apply t, v, k, hk => by
    rw [Step.script]
    exact hk _
  | .reject p message, v, k, hk => by
    rw [Step.script]
    split
    · exact hfail _ _
    · exact hk _
  | .when p steps, v, k, hk => by
    rw [Step.script]
    split
    · exact Steps.script_indifferent hfail steps v hk
    · exact hk _
  | .note text, v, k, hk => by
    rw [Step.script]
    exact .emit _ (hk v)
  | .perform commands propagates, v, k, hk => by
    rw [Step.script]
    refine Commands.script_indifferent _ ?_ commands (hk v)
    intro f hf e
    cases propagates with
    | false => cases hf
    | true =>
      cases hf
      exact hfail _ _

theorem Steps.script_indifferent {ρ : Role} {fail : Cause → Value → Script Value ρ}
    (hfail : ∀ c v, (fail c v).Indifferent) :
    ∀ (steps : List Step) (v : Value) {k : Value → Script Value ρ}, (∀ v, (k v).Indifferent) →
      (Steps.script fail steps v k).Indifferent
  | [], v, k, hk => by
    rw [Steps.script]
    exact hk v
  | s :: steps, v, k, hk => by
    rw [Steps.script]
    exact Step.script_indifferent hfail s v fun v => Steps.script_indifferent hfail steps v hk

/-- The callbacks that a command gives to its operation. -/
theorem Command.gives_indifferent (scope : Scope) (literals : Kind) :
    ∀ (c : Command) (x : (ρ : Role) × Script Value ρ), (c.op scope literals).Gives x →
      x.2.Indifferent := by
  intro c x hx
  cases c with
  | property name kind init validation reporting =>
    rw [Command.op] at hx
    obtain ⟨v, rfl⟩ | ⟨report, hreport, e, rfl⟩ := hx.of_property
    · exact Validation.script_indifferent validation v
    · exact Reporting.script_indifferent reporting report hreport e
  | listener name reaction =>
    rw [Command.op] at hx
    cases hx with
    | listen _ _ call => exact Reaction.script_indifferent name reaction call
  | wrap name as steps =>
    rw [Command.op] at hx
    cases hx with
    | convert _ _ _ v =>
      exact Steps.script_indifferent (fun _ _ => .stop _) steps v fun _ => .stop _
  | _ =>
    rw [Command.op] at hx
    cases hx

theorem Commands.script_indifferent {ρ : Role} (scope : Scope)
    {stop : Option (Error → Script Value ρ)} (hstop : ∀ f ∈ stop, ∀ e, (f e).Indifferent) :
    ∀ (commands : List Command) {k : Script Value ρ}, k.Indifferent →
      (Commands.script scope stop commands k).Indifferent
  | [], k, hk => by
    rw [Commands.script]
    exact hk
  | c :: commands, k, hk => by
    have hrest := Commands.script_indifferent scope hstop commands hk
    rw [Commands.script]
    refine Command.withKind_indifferent c fun kind =>
      .perform (Command.gives_indifferent scope kind c) (fun r => .emit _ ?_) fun r => ?_
    · split
      · next f e _ => exact hstop f rfl e
      · exact hrest
    · have htells : Event.Tells (fun x => x = r) (.performed c.word r) (.performed c.word r.more) :=
        @Event.Tells.performed _ (fun x => x = r) c.word r rfl 1
      refine .emit htells ?_
      rw [error?_more]
      exact .refl _ _

theorem Validation.script_indifferent :
    ∀ (x : Validation) (v : Value), (Validation.script x v).Indifferent
  | .any, v => by
    rw [Validation.script]
    exact .stop _
  | .adjusting steps, v => by
    rw [Validation.script]
    exact Steps.script_indifferent (fun _ _ => .stop _) steps v fun _ => .stop _
  | .fallible steps, v => by
    rw [Validation.script]
    exact Steps.script_indifferent (fun _ _ => .stop _) steps v fun _ => .stop _

theorem Reporting.script_indifferent :
    ∀ (x : Reporting), ∀ report ∈ Reporting.script x, ∀ e, (report e).Indifferent
  | .nobody, report, hreport, e => by
    rw [Reporting.script] at hreport
    cases hreport
  | .recorder, report, hreport, e => by
    rw [Reporting.script] at hreport
    cases hreport
    exact .emit _ (.stop _)
  | .named name commands, report, hreport, e => by
    rw [Reporting.script] at hreport
    cases hreport
    exact .emit _ (Commands.script_indifferent _ (by simp) commands (.stop _))

theorem Reaction.script_indifferent (name : String) :
    ∀ (x : Reaction) (call : Call Value), (Reaction.script name x call).Indifferent
  | .mk limit commands propagates fallible failure, call => by
    rw [Reaction.script.eq_def]
    refine .emit _ ?_
    split
    · refine Commands.script_indifferent _ (fun f hf e => ?_) commands ?_
      · split at hf
        · cases hf
          exact .stop _
        · cases hf
      · split
        · split <;> exact .stop _
        · exact .stop _
    · split
      · split <;> exact .stop _
      · exact .stop _

end

end Recipe

/-- The callbacks of written operations are indifferent. -/
theorem Op.IsWritten.gives_indifferent {op : Op Value} (hop : op.IsWritten)
    (x : (ρ : Role) × Script Value ρ) (hx : op.Gives x) : x.2.Indifferent := by
  obtain ⟨scope, literals, command, rfl⟩ := hop
  exact Recipe.Command.gives_indifferent scope literals command x hx

end Observable
