import Observable.Proofs.Unwinding

/-!
# Failures through operations

A failure of a callback is returned by the operation that is innermost in progress, which sets a
property or notifies a set, and it is returned as it is. If that operation was performed by another
callback, the callback may pass the failure on; then it is wrapped once, with the stage of that
callback, and the next operation returns the wrapped failure. So the stages around a failure are
those of the callbacks that passed it on, and nothing else adds to it (`Config.Passed`,
`Config.Transparent`).
-/

namespace Observable

variable {V : Type}

namespace Error

/-- The stages around the innermost failure, outermost first. -/
def stages : Error → List Stage
  | .failed stage _ => [stage]
  | .relayed stage inner => stage :: inner.stages
  | _ => []

/-- What the innermost failure says. -/
def text : Error → String
  | .failed _ text => text
  | .relayed _ inner => inner.text
  | e => e.message

/-- The failure once callbacks have passed it on, in the given stages, outermost first. -/
def through (e : Error) : List Stage → Error
  | [] => e
  | stage :: stages => .relayed stage (e.through stages)

theorem length_chain (e : Error) : e.chain.length = e.stages.length := by
  induction e with
  | relayed _ _ ih => simp [chain, stages, ih]
  | _ => rfl

theorem message_eq (e : Error) : e.message = (e.stages.map Stage.heading).foldr (· ++ ·) e.text := by
  induction e with
  | relayed _ _ ih => rw [message, ih]; rfl
  | _ => rfl

theorem stages_through (e : Error) (stages : List Stage) :
    (e.through stages).stages = stages ++ e.stages := by
  induction stages with
  | nil => rfl
  | cons stage stages ih => rw [through, Error.stages, ih]; rfl

theorem text_through (e : Error) (stages : List Stage) : (e.through stages).text = e.text := by
  induction stages with
  | nil => rfl
  | cons stage stages ih => exact ih

end Error

/-- Some operation has its reply. -/
def Focus.isReply : Focus V → Bool
  | .reply _ _ => true
  | _ => false

/-- The operation calls what is registered with an object or follows it. -/
def Op.Announces : Op V → Prop
  | .set _ _ | .notify _ _ _ _ => True
  | _ => False

namespace Config

/-- The operation `op`, below which the frames of `k` wait, is in progress: it has begun and has no
reply yet. -/
def Operating (past : List (Config V)) (c : Config V) (op : Op V) (k : Stack V .reply) : Prop :=
  ∃ later c₀ before, past = later ++ c₀ :: before ∧ c₀.focus = .operate op k ∧
    ∀ d ∈ c :: later, d.Waits k ∧ ∀ r, d.focus ≠ .reply r k

theorem Operating.cons {past : List (Config V)} {c d : Config V} {op : Op V} {k : Stack V .reply}
    (hc : Operating past c op k) (hd : d.Waits k ∧ ∀ r, d.focus ≠ .reply r k) :
    Operating (c :: past) d op k := by
  obtain ⟨later, c₀, before, rfl, hfocus, hopen⟩ := hc
  refine ⟨c :: later, c₀, before, rfl, hfocus, fun e he => ?_⟩
  rcases List.mem_cons.1 he with rfl | he
  · exact hd
  · exact hopen e he

theorem waits_of_enters {c : Config V} {k : Stack V .reply} {x : (a : Awaits) × Stack V a}
    (hmem : x ∈ c.focus.frames.2.tails) (hx : Stack.Enters k x) :
    c.Waits k ∧ ∀ r, c.focus ≠ .reply r k := by
  cases hx with
  | setting i => exact waits_of_serves hmem (.setting (i := i))
  | notifying i j => exact waits_of_serves hmem (.notifying (i := i) j)

/-- The failure that a callback passes on now, and the stage of the callback. -/
def relays? (c : Config V) : Option (Stage × Error) :=
  match c.focus with
  | @Focus.run _ .validator (.stop (.error (.error inner))) (.validating _ _) =>
    some (.validation, inner)
  | @Focus.run _ .listener (.stop (.error (.error inner))) (.listening _) => some (.listener, inner)
  | _ => none

theorem raised?_of_relays? {c : Config V} {stage : Stage} {inner : Error}
    (hrelays : c.relays? = some (stage, inner)) : c.raised? = some (.relayed stage inner) := by
  unfold relays? at hrelays
  split at hrelays
  · next hfocus =>
    cases hrelays
    simp [raised?, hfocus, Cause.during]
  · next hfocus =>
    cases hrelays
    simp [raised?, hfocus, Cause.during]
  · cases hrelays

theorem stage?_of_raised? {c : Config V} {e : Error} (hraised : c.raised? = some e) :
    e.stage?.isSome = true := by
  rcases raised?_cases hraised with ⟨_, cause, _, rfl, _⟩ | ⟨cause, _, rfl, _⟩ <;>
    exact isSome_stage?_during _ cause

/-- An operation has just returned a failure that began as `e`, when some callback failed with it,
and that callbacks in the given stages have passed on since, outermost first. -/
inductive Passed (e : Error) : List Stage → List (Config V) → Config V → Prop
  /-- The operation that was innermost in progress when the callback failed has its reply. -/
  | returned {later before : List (Config V)} {c₀ c : Config V} {r : Reply V} {k : Stack V .reply}
      (hraised : c₀.raised? = some e) (hk : c₀.focus.frames.2.caller = k)
      (hreply : c.focus = .reply r k) (hopen : ∀ d ∈ later, ∀ r, d.focus ≠ .reply r k) :
    Passed e [] (later ++ c₀ :: before) c
  /-- The callback that performed the operation has passed the failure on, and the next operation
  has its reply. -/
  | relayed {later between before : List (Config V)} {c₀ c₁ c : Config V} {stages : List Stage}
      {stage : Stage} {inner : Error} {ρ : Role} {next : Reply V → Script V ρ}
      {l : Stack V (.answer ρ)} {r : Reply V} {k : Stack V .reply}
      (hpassed : Passed e stages before c₀)
      (hback : c₀.focus = .reply (.failed inner) (.script next l))
      (hsame : ∀ d ∈ between, d.Waits l)
      (hframes : c₁.focus.frames = ⟨_, l⟩) (hrelays : c₁.relays? = some (stage, inner))
      (hk : l.caller = k) (hreply : c.focus = .reply r k)
      (hopen : ∀ d ∈ later, ∀ r, d.focus ≠ .reply r k) :
    Passed e (stage :: stages) (later ++ c₁ :: (between ++ c₀ :: before)) c

variable [BEq V]

/-- Frames that set a property or notify a set belong to an operation in progress. -/
theorem Run.operating {allowed : Op V → Prop} {past : List (Config V)} {c : Config V}
    (hrun : Run allowed past c) {k : Stack V .reply} {x : (a : Awaits) × Stack V a}
    (hmem : x ∈ c.focus.frames.2.tails) (hx : Stack.Enters k x) :
    ∃ op : Op V, op.Announces ∧ Operating past c op k := by
  induction hrun with
  | start hop =>
    obtain rfl := List.mem_singleton.1 hmem
    cases hx
  | perform hrun hreply hop ih =>
    obtain rfl := List.mem_singleton.1 hmem
    cases hx
  | @step past c d hrun hstep ih =>
    have hwaits := waits_of_enters hmem hx
    rcases (Transition.of_step hstep).pushes hmem with hbefore | hpushes
    · obtain ⟨op, hop, hoperating⟩ := ih hbefore
      exact ⟨op, hop, hoperating.cons hwaits⟩
    · have hbegins : ∀ {op}, c.focus = .operate op k → Operating (c :: past) d op k := by
        intro op hfocus
        refine ⟨[], c, past, rfl, hfocus, fun e he => ?_⟩
        rw [List.mem_singleton.1 he]
        exact hwaits
      cases hpushes with
      | setting hfocus =>
        cases hx
        exact ⟨.set _ _, trivial, hbegins hfocus⟩
      | notifying hfocus =>
        cases hx
        exact ⟨.notify _ _ _ _, trivial, hbegins hfocus⟩
      | _ => cases hx

/-- A callback fails inside an operation that sets a property or notifies a set; every other
operation in progress is further down. -/
theorem Run.operating_of_raised? {allowed : Op V → Prop} {past : List (Config V)} {c : Config V}
    (hrun : Run allowed past c) {e : Error} (hraised : c.raised? = some e) :
    ∃ op : Op V, op.Announces ∧ Operating past c op c.focus.frames.2.caller := by
  obtain ⟨y, hy, henters⟩ : ∃ y ∈ c.focus.frames.2.tails,
      Stack.Enters c.focus.frames.2.caller y := by
    rcases raised?_cases hraised with ⟨i, cause, u, _, hfocus⟩ | ⟨cause, l, _, hfocus⟩
    · rw [hfocus]
      obtain ⟨y, hy, henters⟩ := u.exists_enters (.inl rfl)
      exact ⟨y, List.mem_cons_of_mem _ hy, henters⟩
    · rw [hfocus]
      obtain ⟨y, hy, henters⟩ := l.exists_enters (.inr (.inl rfl))
      exact ⟨y, List.mem_cons_of_mem _ hy, henters⟩
  exact hrun.operating hy henters

/-- The reply to an operation in which a callback has failed is that failure. -/
theorem Run.reply_of_raised? {allowed : Op V → Prop} {later before : List (Config V)}
    {c₀ c : Config V} (hrun : Run allowed (later ++ c₀ :: before) c) {e : Error}
    (hraised : c₀.raised? = some e) {k : Stack V .reply} (hk : c₀.focus.frames.2.caller = k)
    {r : Reply V} (hreply : c.focus = .reply r k) (hopen : ∀ d ∈ later, ∀ r, d.focus ≠ .reply r k) :
    r = .failed e := by
  obtain ⟨_, _, _, _, hunwinds | ⟨_, hfocus⟩⟩ := hrun.unwound (.raised hraised hk) hopen
  · exact absurd hreply (hunwinds.focus_ne_reply r)
  · rw [hreply] at hfocus
    cases hfocus
    rfl

/-- A failure that callbacks have passed on is wrapped in their stages, and in nothing else. -/
theorem Passed.reply {allowed : Op V → Prop} {past : List (Config V)} {c : Config V} {e : Error}
    {stages : List Stage} (hpassed : Passed e stages past c) (hrun : Run allowed past c) :
    ∃ k, c.focus = .reply (.failed (e.through stages)) k := by
  induction hpassed with
  | returned hraised hk hreply hopen =>
    rw [hrun.reply_of_raised? hraised hk hreply hopen] at hreply
    exact ⟨_, hreply⟩
  | @relayed later between before c₀ c₁ c stages stage inner ρ next l r k _ hback _ hframes hrelays
      hk hreply hopen ih =>
    have hinner : inner = e.through stages := by
      obtain ⟨k', hk'⟩ := ih hrun.of_append.of_append
      cases hback.symm.trans hk'
      rfl
    have hcaller : c₁.focus.frames.2.caller = k := by
      rw [hframes]
      exact hk
    rw [hrun.reply_of_raised? (raised?_of_relays? hrelays) hcaller hreply hopen] at hreply
    rw [Error.through, ← hinner]
    exact ⟨k, hreply⟩

/-! ## Failures of `set` -/

/-- A failure that a call of `set` on a free property returns comes from a callback that failed
inside it. -/
theorem Run.raised_of_set {allowed : Op V → Prop} {later before : List (Config V)}
    {c₀ c : Config V} (hrun : Run allowed (later ++ c₀ :: before) c) {name : String} {v : V}
    {k : Stack V .reply} {i : Id} {p : Property V} (hfocus : c₀.focus = .operate (.set name v) k)
    (hname : c₀.state.world.find? name Handle.property? = some i)
    (hp : c₀.state.world.property? i = some p) (hfree : p.source = none) {e : Error}
    (hreply : c.focus = .reply (.failed e) k) (hopen : ∀ d ∈ later, ∀ r, d.focus ≠ .reply r k) :
    ∃ after d between, later = after ++ d :: between ∧ d.raised? = some e ∧
      d.focus.frames.2.caller = k := by
  cases later with
  | nil =>
    -- The first thing that the call does is to call the validator.
    cases hrun with
    | step _ hstep =>
      rw [step_set_free hfocus hname hp hfree] at hstep
      cases hstep
      cases hreply
    | perform => cases hreply
  | cons d later =>
    have hlater : ∀ d ∈ later, ∀ r, d.focus ≠ .reply r k :=
      fun d hd => hopen d (List.mem_cons_of_mem _ hd)
    cases hrun with
    | perform => cases hreply
    | step hrun hstep =>
      have hwaits : d.Waits (.setting i k) :=
        (hrun.reply_of_set hfocus hname hp hfree hlater).resolve_right
          fun ⟨r, hr, _⟩ => hopen d List.mem_cons_self r hr
      have hunwinds : d.Unwinds e k [] := by
        have hframes := ((Transition.of_step hstep).waits hwaits).resolve_right fun h => by
          rw [Waits, hreply] at h
          exact Stack.setting_not_mem_tails i k h
        obtain ⟨r, hupdated⟩ : ∃ r, d.focus = .updated r (.setting i k) := by
          obtain ⟨s, f⟩ := d
          cases f with
          | updated r l =>
            cases hframes
            exact ⟨r, rfl⟩
          | _ => cases hframes
        obtain ⟨s, hnext, _⟩ := step_of_updated hupdated
        rw [hstep] at hnext
        cases hnext
        cases r with
        | ok old => cases hreply
        | error e' =>
          cases hreply
          exact .updated hupdated rfl
      exact hrun.raised_since hfocus hunwinds

/-- An operation that has its reply at once has no other. -/
theorem Run.focus_of_replies {allowed : Op V → Prop} {later before : List (Config V)}
    {c₀ c : Config V} (hrun : Run allowed (later ++ c₀ :: before) c) {s : State V} {r : Reply V}
    {k : Stack V .reply} (hstep : c₀.step = some ⟨s, .reply r k⟩)
    (hopen : ∀ d ∈ later, ∀ r, d.focus ≠ .reply r k) : c.focus = .reply r k := by
  rcases hrun.eq_or_mem_of_step hstep with rfl | hmem
  · rfl
  · exact absurd rfl (hopen _ hmem r)

/-- What a failed call of `set` returns. -/
theorem Run.failure_of_set {allowed : Op V → Prop} {later before : List (Config V)}
    {c₀ c : Config V} (hrun : Run allowed (later ++ c₀ :: before) c) {name : String} {v : V}
    {k : Stack V .reply} (hfocus : c₀.focus = .operate (.set name v) k) {e : Error}
    (hreply : c.focus = .reply (.failed e) k) (hopen : ∀ d ∈ later, ∀ r, d.focus ≠ .reply r k) :
    ∃ i, c₀.state.world.find? name Handle.property? = some i ∧
      ((c₀.state.world.isBound i = true ∧ e = .boundWrite) ∨
        (c₀.state.world.isBound i = false ∧
          ∃ after d between, later = after ++ d :: between ∧ d.raised? = some e ∧
            d.focus.frames.2.caller = k)) := by
  cases hname : c₀.state.world.find? name Handle.property? with
  | none =>
    have hstep : c₀.step = some ⟨c₀.state, .reply .unknownName k⟩ := by
      rw [Config.step, hfocus]
      simp [State.operate, hname]
    cases hreply.symm.trans (hrun.focus_of_replies hstep hopen)
  | some i =>
    obtain ⟨p, hp⟩ := World.shape?_eq_property_iff.1
      (hrun.of_append.sound.world.shape?_of_property hname)
    refine ⟨i, rfl, ?_⟩
    rw [World.isBound_of_property? hp]
    cases hsource : p.source with
    | none =>
      exact .inr ⟨rfl, hrun.raised_of_set hfocus hname hp hsource hreply hopen⟩
    | some u =>
      have hstep := step_set_bound hfocus hname hp (by rw [hsource]; rfl)
      cases hreply.symm.trans (hrun.focus_of_replies hstep hopen)
      exact .inl ⟨rfl, rfl⟩

/-- A call of `set` is refused exactly if it finds the property bound. -/
theorem Run.refused_of_set {allowed : Op V → Prop} {later before : List (Config V)}
    {c₀ c : Config V} (hrun : Run allowed (later ++ c₀ :: before) c) {name : String} {v : V}
    {k : Stack V .reply} {i : Id} (hfocus : c₀.focus = .operate (.set name v) k)
    (hname : c₀.state.world.find? name Handle.property? = some i) {r : Reply V}
    (hreply : c.focus = .reply r k) (hopen : ∀ d ∈ later, ∀ r, d.focus ≠ .reply r k) :
    r = .failed .boundWrite ↔ c₀.state.world.isBound i = true := by
  constructor
  · rintro rfl
    obtain ⟨j, hj, ⟨hbound, _⟩ | ⟨_, _, d, _, _, hraised, _⟩⟩ :=
      hrun.failure_of_set hfocus hreply hopen
    · cases hname.symm.trans hj
      exact hbound
    · cases stage?_of_raised? hraised
  · intro hbound
    obtain ⟨p, hp⟩ := World.shape?_eq_property_iff.1
      (hrun.of_append.sound.world.shape?_of_property hname)
    rw [World.isBound_of_property? hp] at hbound
    cases hreply.symm.trans
      (hrun.focus_of_replies (step_set_bound hfocus hname hp hbound) hopen)
    rfl

/-! ## Transparency -/

/-- How failures of callbacks come to operations, given the past of a run. -/
structure Transparent (past : List (Config V)) (c : Config V) : Prop where
  /-- What a callback fails with, the innermost operation in progress returns as it is. That
  operation sets a property or notifies a set, and it does return, unless a reporter that learns of
  the failure never ends. -/
  returned : ∀ e, c.raised? = some e → ∃ (op : Op V) (k : Stack V .reply), op.Announces ∧
    Operating past c op k ∧ (∀ op' k', Operating past c op' k' → ⟨_, k'⟩ ∈ k.tails) ∧
    c.FailsWith e k
  /-- On its way through further operations it is wrapped once by each callback that passes it on,
  with what it was as the source, and by nothing else. -/
  passed : ∀ e stages, Passed e stages past c →
    (∃ k, c.focus = .reply (.failed (e.through stages)) k) ∧
      (e.through stages).stages = stages ++ e.stages ∧ (e.through stages).text = e.text
  /-- A call of `set` is refused exactly if the property was bound when it began. -/
  refused : ∀ later c₀ before name v k i r, past = later ++ c₀ :: before →
    c₀.focus = .operate (.set name v) k → c₀.state.world.find? name Handle.property? = some i →
    c.focus = .reply r k → (∀ d ∈ later, ∀ r, d.focus ≠ .reply r k) →
    (r = .failed .boundWrite ↔ c₀.state.world.isBound i = true)
  /-- A call of `set` fails because the property was bound when it began, or with what a callback
  inside it failed with. -/
  set : ∀ later c₀ before name v k e, past = later ++ c₀ :: before →
    c₀.focus = .operate (.set name v) k → c.focus = .reply (.failed e) k →
    (∀ d ∈ later, ∀ r, d.focus ≠ .reply r k) →
    ∃ i, c₀.state.world.find? name Handle.property? = some i ∧
      ((c₀.state.world.isBound i = true ∧ e = .boundWrite) ∨
        (c₀.state.world.isBound i = false ∧ e.stage?.isSome = true ∧
          ∃ after d between, later = after ++ d :: between ∧ d.raised? = some e ∧
            d.focus.frames.2.caller = k)) ∧
      e.isLifecycle = false
  /-- The stages around a failure are what its text begins with and what the chain of its sources
  counts. -/
  wording : ∀ e : Error, e.chain.length = e.stages.length ∧
    e.message = (e.stages.map Stage.heading).foldr (· ++ ·) e.text

theorem isLifecycle_of_stage? {e : Error} (he : e.stage?.isSome = true) : e.isLifecycle = false := by
  cases e <;> first | rfl | cases he

/-- In every run, whatever callbacks do, failures are transparent to what lies between the callback
that fails and the operation that returns the failure. -/
theorem Run.transparent {allowed : Op V → Prop} {past : List (Config V)} {c : Config V}
    (hrun : Run allowed past c) : c.Transparent past := by
  constructor
  case returned =>
    intro e hraised
    obtain ⟨op, hop, hoperating⟩ := hrun.operating_of_raised? hraised
    refine ⟨op, _, hop, hoperating, ?_, failsWith_of_raised? hraised⟩
    rintro op' k' ⟨later, c₀, before, _, _, hopen⟩
    exact Stack.mem_tails_caller (hopen c List.mem_cons_self).1
  case passed =>
    exact fun e stages hpassed =>
      ⟨hpassed.reply hrun, e.stages_through stages, e.text_through stages⟩
  case refused =>
    rintro later c₀ before name v k i r rfl hfocus hname hreply hopen
    exact hrun.refused_of_set hfocus hname hreply hopen
  case set =>
    rintro later c₀ before name v k e rfl hfocus hreply hopen
    obtain ⟨i, hname, ⟨hbound, rfl⟩ | ⟨hfree, after, d, between, hlater, hraised, hk⟩⟩ :=
      hrun.failure_of_set hfocus hreply hopen
    · exact ⟨i, hname, .inl ⟨hbound, rfl⟩, rfl⟩
    · have hstage := stage?_of_raised? hraised
      exact ⟨i, hname, .inr ⟨hfree, hstage, after, d, between, hlater, hraised, hk⟩,
        isLifecycle_of_stage? hstage⟩
  case wording => exact fun e => ⟨e.length_chain, e.message_eq⟩

/-- The validator of a property rejects a value that came to it through a binding, from a property
that a listener has set. The listener passes the failure on. -/
theorem transparent_relayed : ∃ (past : List (Config Nat)) (c : Config Nat),
    Run (fun _ => True) past c ∧ Passed (.failed .validation "no") [.listener] past c ∧
      c.focus = .reply (.failed (.relayed .listener (.failed .validation "no"))) .idle ∧
      c.Transparent past := by
  have hsource : Run (fun _ => True) _
      (start {} (.act (.property "p" 0 (fun v => .stop (.ok v)) none))) := .start trivial
  have hbinding : Run (fun _ => True) _ (start _ (.wrap "p" "q" fun v => .stop (v + 1))) :=
    (hsource.step rfl).perform rfl trivial
  have hfollower : Run (fun _ => True) _ (start _ (.act (.property "r" 0
      (fun _ => .stop (.error (.text "no"))) none))) :=
    (((hbinding.step rfl).step rfl)).perform rfl trivial
  have hbind : Run (fun _ => True) _ (start _ (.act (.bind "r" "q"))) :=
    (hfollower.step rfl).perform rfl trivial
  have hother : Run (fun _ => True) _
      (start _ (.act (.property "o" 0 (fun v => .stop (.ok v)) none))) :=
    (hbind.step rfl).perform rfl trivial
  have hlistener : Run (fun _ => True) _ (start _ (.act (.listener "l" fun call =>
      .perform (.set "p" call.new) fun r =>
        match r.error? with
        | some e => .stop (.error (.error e))
        | none => .stop (.ok ())))) := (hother.step rfl).perform rfl trivial
  have hadd : Run (fun _ => True) _ (start _ (.act (.add "o" "l"))) :=
    (hlistener.step rfl).perform rfl trivial
  have hset : Run (fun _ => True) _ (start _ (.set "o" 1)) :=
    (hadd.step rfl).perform rfl trivial
  have hraise := hset.iterate 9
  have hback := (hraise.step rfl).iterate 6
  have hrelay := hback.step rfl
  have hlast := (hrelay.step rfl).iterate 3
  have hquiet : ∀ {c : Config Nat} {n : Nat}, ((c.trail n).all fun d => !d.focus.isReply) = true →
      ∀ d ∈ c.trail n, ∀ r k, d.focus ≠ .reply r k := by
    intro c n hall d hd r k hfocus
    have hinside := List.all_eq_true.1 hall d hd
    rw [hfocus] at hinside
    cases hinside
  refine ⟨_, _, hlast, ?_, rfl, hlast.transparent⟩
  refine @Passed.relayed Nat _ _ [] _ _ _ _ _ _ _ _ _ _ _ _ ?_ rfl ?_ rfl rfl rfl rfl ?_
  · exact .returned rfl rfl rfl fun d hd r => hquiet (by rfl) d hd r _
  · exact fun _ hd => by cases hd
  · exact fun d hd r => hquiet (by rfl) d hd r _

end Config

end Observable
