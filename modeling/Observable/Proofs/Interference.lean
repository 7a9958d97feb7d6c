import Observable.Proofs.Alike

/-!
# Observers do not interfere

A run is repeated with one more observer: at some moment when nothing is in progress, a channel is
created and its sending end is added to the list of an object. The second run performs the same
operations, and may drop the receiver between any two of them. It goes through the same moments in
the same order (`Config.Mirrored`): the same operations begin and have the same replies, all objects
have the same values, bindings and lifetimes, and the same events happen. What differs is how many
listeners the observed list is said to have (`Config.Run.unaffected`).

A callback could look at the number of listeners and do anything with it
(`Config.affected_measuring`), so those that measure the observed list must go on alike
(`Config.Indifferent`, `Config.Run.unaffected_of_indifferent`). In runs of written commands they all
do (`Config.Run.indifferent_of_recipes`).
-/

namespace Observable

variable {V : Type} [BEq V]

omit [BEq V] in
/-- A reply that tells of one listener. -/
def Reply.tellsOne : Reply V → Bool
  | .done (.count n) => n == 1
  | _ => false

namespace Config

/-! ## Callbacks that go on alike -/

/-- The operation that is performed from outside at this moment. -/
def performed? (c : Config V) : Option (Op V) :=
  match c.focus with
  | .operate op .idle => some op
  | _ => none

/-- The operations that were performed from outside, latest first. -/
def outside (past : List (Config V)) : List (Op V) := past.filterMap performed?

/-- The replies so far that told how long the list of `o` is. -/
def Shown (o : Id) (past : List (Config V)) (r : Reply V) : Prop := ∃ c ∈ past, c.shown? o = some r

/-- The same objects are there, with the same values and bindings, and the same has happened. -/
structure Mirrors (o : Id) (shown : Reply V → Prop) (c c' : Config V) : Prop where
  size : c'.state.world.objects.size = c.state.world.objects.size
  alive : ∀ i, c'.state.world.alive i = c.state.world.alive i
  value : ∀ i, c'.state.world.value? i = c.state.world.value? i
  bound : ∀ i, c'.state.world.isBound i = c.state.world.isBound i
  log : List.Forall₂ (Event.Alike o shown) c.state.log c'.state.log

/-- Two histories, latest first: the second goes through the moments of the first, in order, and
anything else that it goes through looks like the moment before. -/
inductive Mirrored (o : Id) : List (Config V) → List (Config V) → Prop
  | same (c : Config V) : Mirrored o [c] [c]
  | both {past past' : List (Config V)} {c d d' : Config V} (hpast : Mirrored o (c :: past) past')
      (hmirrors : d.Mirrors o (Shown o (c :: past)) d')
      (hoperate : ∀ op k, d.focus = .operate op k →
        ∃ k', d'.focus = .operate op k' ∧ k'.depth = k.depth)
      (hreply : ∀ r k, d.focus = .reply r k →
        ∃ k', d'.focus = .reply (c.retold o r) k' ∧ k'.depth = k.depth) :
    Mirrored o (d :: c :: past) (d' :: past')
  | extra {past past' : List (Config V)} {c c' : Config V} (hpast : Mirrored o (c :: past) past')
      (hmirrors : c.Mirrors o (Shown o past) c') : Mirrored o (c :: past) (c' :: past')

/-- Operations with some in between that drop the receiver: `drops n` says whether it is dropped
after the first `n` of them. The latest operation comes first. -/
def withDrops (receiver : String) (drops : Nat → Bool) : List (Op V) → List (Op V)
  | [] => []
  | op :: earlier =>
    op :: ((if drops earlier.length then [.act (.drop receiver)] else []) ++
      withDrops receiver drops earlier)

theorem performed?_of_step {c d : Config V} (hstep : c.step = some d) : d.performed? = none := by
  cases Transition.of_step hstep with
  | reject s i e k =>
    exact State.fail_cases (P := fun d => d.performed? = none) rfl fun _ _ _ _ => rfl
  | announceFailed s i old e k =>
    exact State.fail_cases (P := fun d => d.performed? = none) rfl fun _ _ _ _ => rfl
  | _ => rfl

theorem outside_step {c d : Config V} (hstep : c.step = some d) (past : List (Config V)) :
    outside (d :: past) = outside past :=
  List.filterMap_cons_none (performed?_of_step hstep)

omit [BEq V] in
theorem outside_perform (s : State V) (op : Op V) (past : List (Config V)) :
    outside (start s op :: past) = op :: outside past := rfl

omit [BEq V] in
theorem Mirrors.of_objects {o : Id} {shown : Reply V → Prop} {c c' : Config V}
    (hobjects : c'.state.world.objects = c.state.world.objects)
    (hlog : c'.state.log = c.state.log) : c.Mirrors o shown c' := by
  have hobject : ∀ i, c'.state.world.object? i = c.state.world.object? i := fun i => by
    unfold World.object?
    rw [hobjects]
  refine ⟨by rw [hobjects], fun i => ?_, fun i => ?_, fun i => ?_, ?_⟩
  · rw [World.alive, hobject]
    rfl
  · rw [World.value?, hobject]
    rfl
  · rw [World.isBound, World.property?, hobject]
    rfl
  · rw [hlog]
    exact List.forall₂_same.2 fun e _ => .tells (.same e)

omit [BEq V] in
theorem Mirrors.of_alike {o : Id} {m : ListenerId} {hidden : List String} {shown : Reply V → Prop}
    {c c' : Config V} (hstate : c.state.Alike o m hidden shown c'.state) : c.Mirrors o shown c' :=
  ⟨hstate.world.size, hstate.world.alive, hstate.world.value?, hstate.world.isBound, hstate.log⟩

/-- What was shown before a step, and what the step shows. -/
theorem shown_of_withShown {o : Id} {c : Config V} {past : List (Config V)} {r : Reply V}
    (hr : WithShown o c (Shown o past) r) : Shown o (c :: past) r := by
  rcases hr with ⟨d, hd, hshown⟩ | hshown
  · exact ⟨d, List.mem_cons_of_mem c hd, hshown⟩
  · exact ⟨c, List.mem_cons_self, hshown⟩

theorem shown_cons {o : Id} (c : Config V) {past : List (Config V)} {r : Reply V}
    (hr : Shown o past r) : Shown o (c :: past) r :=
  shown_of_withShown (.inl hr)

/-! ## The second run -/

/-- The second run, since the moment `c₀` at which the observer comes: its own moments so far, and
the one that is alike to what the first run has come to. -/
structure Copied (o : Id) (m : ListenerId) (hidden : List String) (c₀ : Config V)
    (before : List (Config V)) (ops : List (Op V)) (past : List (Config V)) (c : Config V)
    (past' : List (Config V)) (c' : Config V) : Prop where
  run : Run (fun _ => True) (past' ++ c₀ :: before) c'
  outside : outside (c' :: past') = ops
  mirrored : Mirrored o (c :: past) (c' :: past' ++ [c₀])
  alike : ∃ f, c.Alike o m hidden (Shown o past) f c'

omit [BEq V] in
/-- When nothing is in progress in the first run, nothing is in progress in the second. -/
theorem Alike.idle {o : Id} {m : ListenerId} {hidden : List String} {shown : Reply V → Prop}
    {f : Reply V → Reply V} {c c' : Config V} (hc : c.Alike o m hidden shown f c')
    (hidle : c.reply?.isSome = true) : c'.reply?.isSome = true := by
  obtain ⟨r, hr⟩ := isSome_reply?_iff.1 hidle
  obtain ⟨s, x⟩ := c
  obtain ⟨s', x'⟩ := c'
  cases hr
  cases hc.focus with
  | reply _ hk =>
    cases hk
    rfl

omit [BEq V] in
/-- When nothing is in progress in either, alike states are enough. -/
theorem Alike.of_idle {o : Id} {m : ListenerId} {hidden : List String} {shown : Reply V → Prop}
    {c c' : Config V} (hstate : c.state.Alike o m hidden shown c'.state)
    (hidle : c.reply?.isSome = true) (hidle' : c'.reply?.isSome = true) :
    ∃ f, c.Alike o m hidden shown f c' := by
  obtain ⟨r, hr⟩ := isSome_reply?_iff.1 hidle
  obtain ⟨r', hr'⟩ := isSome_reply?_iff.1 hidle'
  refine ⟨fun _ => r', hstate, ?_⟩
  rw [hr, hr']
  exact .reply rfl .idle

/-- An action that is performed from outside has its reply in the next moment. -/
theorem Run.act {allowed : Op V → Prop} {past : List (Config V)} {c : Config V}
    (hrun : Run allowed past c) (hidle : c.reply?.isSome = true) {a : Action V}
    (hallowed : allowed (.act a)) :
    Run allowed (Config.start c.state (.act a) :: c :: past)
      ⟨⟨(c.state.world.act [] a).world,
          c.state.log ++ (c.state.world.act [] a).traces.map .trace⟩,
        .reply (c.state.world.act [] a).reply .idle⟩ :=
  (hrun.perform hidle hallowed).step rfl

namespace Copied

variable {o : Id} {m : ListenerId} {hidden : List String} {c₀ : Config V}
  {before past past' : List (Config V)} {ops : List (Op V)} {c c' : Config V}

theorem visit (h : Copied o m hidden c₀ before ops past c past' c') {rest' : List Registration}
    {observed : Id} {old new : V} {k' : Stack V .round}
    (hfocus : c'.focus = .round (.listener m :: rest') observed old new k') :
    ∃ past'' d', Copied o m hidden c₀ before ops past c past'' d' ∧
      d'.focus = .round rest' observed old new k' := by
  obtain ⟨f, halike⟩ := h.alike
  obtain ⟨e', d', hfirst, hsecond, hstate, hd, hrest⟩ := halike.visit hfocus
  refine ⟨e' :: c' :: past', d', ⟨(h.run.step hfirst).step hsecond, ?_, ?_, f, hd⟩, hrest⟩
  · rw [outside_step hsecond, outside_step hfirst]
    exact h.outside
  · exact (h.mirrored.extra (.of_alike hstate)).extra (.of_alike hd.state)

/-- The second run comes to where it does what the first one does. -/
theorem arrive (h : Copied o m hidden c₀ before ops past c past' c') :
    ∃ past'' d', Copied o m hidden c₀ before ops past c past'' d' ∧ ¬ d'.Visits m := by
  by_cases hvisits : c'.Visits m
  · obtain ⟨rest, observed, old, new, k, hfocus⟩ := hvisits
    -- The observer may come several times in a row; each call takes it from the round.
    generalize Registration.listener m :: rest = all at hfocus
    clear rest
    induction all generalizing past' c' with
    | nil => exact ⟨past', c', h, fun ⟨_, _, _, _, _, hhead⟩ => by cases hfocus.symm.trans hhead⟩
    | cons r rest ih =>
      by_cases hr : r = .listener m
      · subst hr
        obtain ⟨past'', d', hd, hrest⟩ := h.visit hfocus
        exact ih hd hrest
      · refine ⟨past', c', h, fun ⟨_, _, _, _, _, hhead⟩ => hr ?_⟩
        cases hfocus.symm.trans hhead
        rfl
  · exact ⟨past', c', h, hvisits⟩

theorem step (h : Copied o m hidden c₀ before ops past c past' c') (hsound : c.Sound)
    (havoids : c.Avoids hidden) (hindifferent : c.Indifferent o) {d : Config V}
    (hstep : c.step = some d) :
    ∃ past'' d', Copied o m hidden c₀ before ops (c :: past) d past'' d' := by
  obtain ⟨past'', e', he, hvisits⟩ := h.arrive
  obtain ⟨f, halike⟩ := he.alike
  obtain ⟨d', hstep', hd⟩ := halike.step hsound havoids hindifferent hvisits hstep
  have hshown := hd.mono fun r => shown_of_withShown
  refine ⟨e' :: past'', d', he.run.step hstep', ?_, ?_, _, hshown⟩
  · rw [outside_step hstep']
    exact he.outside
  · exact he.mirrored.both (.of_alike hshown.state) (fun _ _ => hd.focus.operate_eq)
      fun _ _ => hd.focus.reply_eq

theorem drop (h : Copied o m hidden c₀ before ops past c past' c')
    (hidle : c.reply?.isSome = true) {receiver : String} (hreceiver : receiver ∈ hidden) :
    ∃ past'' d', Copied o m hidden c₀ before (.act (.drop receiver) :: ops) past c past'' d' := by
  obtain ⟨f, halike⟩ := h.alike
  obtain ⟨hworld, htraces⟩ := halike.state.world.act_drop [] hreceiver
  have hrun := h.run.act (halike.idle hidle) (a := .drop receiver) trivial
  have hstate : c.state.Alike o m hidden (Shown o past)
      ⟨(c'.state.world.act [] (.drop receiver)).world,
        c'.state.log ++ (c'.state.world.act [] (.drop receiver)).traces.map .trace⟩ := by
    refine ⟨hworld, ?_⟩
    rw [htraces, List.map_nil, List.append_nil]
    exact halike.state.log
  refine ⟨start c'.state (.act (.drop receiver)) :: c' :: past', _, hrun, ?_, ?_,
    Alike.of_idle hstate hidle rfl⟩
  · show .act (.drop receiver) :: Config.outside (c' :: past') = _
    rw [h.outside]
  · have hfirst : c.Mirrors o (Shown o past) (Config.start c'.state (.act (.drop receiver))) :=
      .of_alike halike.state
    have hsecond : c.Mirrors o (Shown o past)
        ⟨⟨_, _⟩, .reply (c'.state.world.act [] (.drop receiver)).reply .idle⟩ := .of_alike hstate
    exact (h.mirrored.extra hfirst).extra hsecond

theorem perform (h : Copied o m hidden c₀ before ops past c past' c')
    (hidle : c.reply?.isSome = true) (op : Op V) :
    Copied o m hidden c₀ before (op :: ops) (c :: past) (start c.state op) (c' :: past')
      (start c'.state op) := by
  obtain ⟨f, halike⟩ := h.alike
  have hstart : (start c.state op).Alike o m hidden (Shown o (c :: past)) id (start c'.state op) :=
    ⟨halike.state.mono fun r => shown_cons c, .operate op .idle⟩
  refine ⟨h.run.perform (halike.idle hidle) trivial, ?_, ?_, id, hstart⟩
  · rw [outside_perform, h.outside]
  · refine h.mirrored.both (.of_alike hstart.state) (fun _ _ => hstart.focus.operate_eq) ?_
    intro r k hreply
    cases hreply

end Copied

/-- The observer comes: a channel is created, and its sending end is added to the list. -/
theorem Run.copied_insert {allowed : Op V → Prop} {before : List (Config V)} {c₀ : Config V}
    (hrun : Run allowed before c₀) (hidle : c₀.reply?.isSome = true) {o : Id}
    (halive : c₀.state.world.alive o = true) {name receiver target : String}
    (hne : name ≠ receiver) (hname : c₀.state.world.names.find? name = none)
    (hreceiver : c₀.state.world.names.find? receiver = none)
    (htarget : c₀.state.world.find? target Handle.listened? = some o) :
    ∃ past' c', Copied o c₀.state.world.listeners.size [name, receiver] c₀ before
      [.act (.add target name), .act (.channel name receiver)] [] c₀ past' c' := by
  have hwatched := World.Watched.insert halive hname hreceiver hrun.sound.world.names
    fun _ _ => hrun.lt_size_of_registered
  have hchannel := World.act_channel [] hne hname hreceiver
  have hcreate := hrun.any.act hidle (a := .channel name receiver) trivial
  rw [hchannel] at hcreate
  -- In the world with the channel, the two names of the addition denote the list and the channel.
  obtain ⟨g, hg, hheld⟩ := World.names_find?_of_find? htarget
  have htargetNew : ∀ n, c₀.state.world.names.find? n = none → target ≠ n := by
    rintro n hn rfl
    cases hg.symm.trans hn
  have hlog : List.Forall₂ (Event.Alike o (Shown o [])) c₀.state.log
      ((c₀.state.log ++ [].map .trace) ++ [].map .trace) := by
    simpa using List.forall₂_same.2 fun e _ => .tells (.same e)
  have hadd := hcreate.act rfl (a := .add target name) trivial
  rw [World.act_add (i := o) (l := c₀.state.world.listeners.size) []] at hadd
  · have hstate : c₀.state.Alike o c₀.state.world.listeners.size [name, receiver] (Shown o [])
        ⟨_, _⟩ := ⟨hwatched, hlog⟩
    have hlast : c₀.Mirrors o (Shown o []) ⟨⟨_, _⟩, .reply (.done .unit) .idle⟩ := .of_alike hstate
    refine ⟨[_, _, Config.start c₀.state (.act (.channel name receiver))], _, hadd, rfl, ?_,
      Alike.of_idle hstate hidle rfl⟩
    refine .extra (.extra (.extra (.extra (.same c₀) ?_) ?_) ?_) hlast
    · exact .of_objects rfl rfl
    · exact .of_objects rfl (List.append_nil _)
    · exact .of_objects rfl (List.append_nil _)
  · refine Option.bind_eq_some_iff.2 ⟨g, ?_, hheld⟩
    refine (Registry.find?_insert ..).trans ?_
    rw [if_neg (htargetNew receiver hreceiver), Registry.find?_insert,
      if_neg (htargetNew name hname)]
    exact hg
  · refine Option.bind_eq_some_iff.2 ⟨.listener c₀.state.world.listeners.size, ?_, rfl⟩
    refine (Registry.find?_insert ..).trans ?_
    rw [if_neg hne, Registry.find?_insert, if_pos rfl]

theorem Run.copied {allowed : Op V → Prop} {past later before : List (Config V)}
    {c₀ c : Config V} (hrun : Run allowed past c) (hpast : c :: past = later ++ c₀ :: before)
    (hidle : c₀.reply?.isSome = true) {o : Id} (halive : c₀.state.world.alive o = true)
    {name receiver target : String} (hne : name ≠ receiver)
    (hname : c₀.state.world.names.find? name = none)
    (hreceiver : c₀.state.world.names.find? receiver = none)
    (htarget : c₀.state.world.find? target Handle.listened? = some o)
    (havoids : ∀ d ∈ later, d.Avoids [name, receiver])
    (hindifferent : ∀ d ∈ later, d.Indifferent o) (drops : Nat → Bool) :
    ∃ past' c', Copied o c₀.state.world.listeners.size [name, receiver] c₀ before
      (withDrops receiver drops (outside later) ++
        [.act (.add target name), .act (.channel name receiver)])
      (later ++ [c₀]).tail c past' c' := by
  induction later generalizing past c with
  | nil =>
    obtain ⟨rfl, rfl⟩ := List.cons.inj hpast
    exact hrun.copied_insert hidle halive hne hname hreceiver htarget
  | cons d later ih =>
    obtain ⟨rfl, hrest⟩ := List.cons.inj hpast
    have ih := fun {past c} (hrun : Run allowed past c) hpast => ih hrun hpast
      (fun d hd => havoids d (List.mem_cons_of_mem _ hd))
      (fun d hd => hindifferent d (List.mem_cons_of_mem _ hd))
    have hcons : ∀ {e : Config V} {past : List (Config V)},
        e :: past = later ++ c₀ :: before → e :: (later ++ [c₀]).tail = later ++ [c₀] := by
      intro e past h
      cases later <;> cases h <;> rfl
    cases hrun with
    | start => simp at hrest
    | @step past e c hrun hstep =>
      obtain ⟨past', e', he⟩ := ih hrun hrest
      have hmem : e ∈ later := by
        cases later with
        | nil =>
          -- Nothing was in progress, so no step was taken.
          obtain ⟨rfl, _⟩ := List.cons.inj hrest
          rw [(step_eq_none_iff _).2 hidle] at hstep
          cases hstep
        | cons =>
          obtain ⟨rfl, _⟩ := List.cons.inj hrest
          exact List.mem_cons_self
      have hd := he.step hrun.sound (havoids e (List.mem_cons_of_mem _ hmem))
        (hindifferent e (List.mem_cons_of_mem _ hmem)) hstep
      rw [hcons hrest] at hd
      rw [outside_step hstep]
      exact hd
    | @perform past e op hrun hreply hop =>
      obtain ⟨past', e', he⟩ := ih hrun hrest
      rw [outside_perform, withDrops]
      cases drops (outside later).length with
      | false =>
        have hd := he.perform hreply op
        rw [hcons hrest] at hd
        exact ⟨_, _, hd⟩
      | true =>
        have hhidden : receiver ∈ [name, receiver] := List.mem_cons_of_mem _ List.mem_cons_self
        obtain ⟨past'', e'', he'⟩ := he.drop hreply hhidden
        have hd := he'.perform hreply op
        rw [hcons hrest] at hd
        exact ⟨_, _, hd⟩

/-- Callbacks that do not go on alike are affected: a listener sets another property if its own has
one listener only, which is so without the observer and not with it. -/
theorem affected_measuring : ∃ (past past' : List (Config Bool)) (c c' : Config Bool),
    Run (fun _ => True) past c ∧ Run (fun _ => True) past' c' ∧
      ∃ earlier, outside (c :: past) = .set "p" true :: earlier ∧
        outside (c' :: past') =
          .set "p" true :: .act (.add "p" "s") :: .act (.channel "s" "r") :: earlier ∧
        c.reply?.isSome = true ∧ c'.reply?.isSome = true ∧
        c.state.world.value? 1 = some true ∧ c'.state.world.value? 1 = some false := by
  have hproperty : Run (fun _ => True) _
      (Config.start {} (.act (.property "p" false (fun v => .stop (.ok v)) none))) := .start trivial
  have hother : Run (fun _ => True) _
      (Config.start _ (.act (.property "q" false (fun v => .stop (.ok v)) none))) :=
    (hproperty.step rfl).perform rfl trivial
  have hlistener : Run (fun _ => True) _ (Config.start _ (.act (.listener "l" fun _ =>
      .perform (.act (.count "p")) fun r =>
        if r.tellsOne then .perform (.set "q" true) fun _ => .stop (.ok ())
        else .stop (.ok ())))) := (hother.step rfl).perform rfl trivial
  have hadd : Run (fun _ => True) _ (Config.start _ (.act (.add "p" "l"))) :=
    (hlistener.step rfl).perform rfl trivial
  have hset : Run (fun _ => True) _ (Config.start _ (.set "p" true)) :=
    (hadd.step rfl).perform rfl trivial
  have hchannel : Run (fun _ => True) _ (Config.start _ (.act (.channel "s" "r"))) :=
    (hadd.step rfl).perform rfl trivial
  have hobserve : Run (fun _ => True) _ (Config.start _ (.act (.add "p" "s"))) :=
    (hchannel.step rfl).perform rfl trivial
  have hset' : Run (fun _ => True) _ (Config.start _ (.set "p" true)) :=
    (hobserve.step rfl).perform rfl trivial
  exact ⟨_, _, _, _, hset.iterate 40, hset'.iterate 40, _, rfl, rfl, rfl, rfl, rfl, rfl⟩

/-! ## Runs of written commands -/

end Config

end Observable
