import Observable.Proofs.FirstObserver
import Observable.Proofs.Rebinding

/-!
# Closed groups are frozen

Objects that have no sources but one another, for instance properties that are bound in a circle,
have no way in: a call of `set` is refused, and a change could come only from another member. So
once nothing is in progress, nothing is computed for a member or announced by it any more, whatever
happens around the group, until a member is released (`Config.Run.frozen`).

The invariant is that no member is at work (`Stack.busy`) and no round has still to call one. A step
sets an object to work only if that object has no source or was about to be called
(`Config.Transition.busy`); and what a round is about to call comes from the list of an object that
is no member, since a member would have been at work.
-/

namespace Observable

variable {V : Type}

namespace Stack

/-- The objects that are at work: those that are being updated, those whose validator, reporter or
converter runs, and those whose listeners are being notified. -/
def busy : {a : Awaits} → Stack V a → List Id
  | _, .idle => []
  | _, .script _ below => below.busy
  | _, .setting i below => i :: below.busy
  | _, .following i below => i :: below.busy
  | _, .validating i below => i :: below.busy
  | _, .reporting i _ below => i :: below.busy
  | _, .converting i below => i :: below.busy
  | _, .wrapping _ _ _ below => below.busy
  | _, .listening below => below.busy
  | _, .round _ _ _ _ below => below.busy
  | _, .notifying i _ below => i :: below.busy
  | _, .updating i _ below => i :: below.busy
  | _, .recomputing i below => i :: below.busy

theorem updated_mem_busy (k : Stack V .update) : k.updated ∈ k.busy := by
  cases k <;> exact List.mem_cons_self

end Stack

/-- The objects that are at work. -/
def Focus.busy (f : Focus V) : List Id := f.frames.2.busy

namespace Config

/-- A failing update sets nothing to work but the property that was updated. -/
theorem mem_busy_of_fail {s : State V} {e : Error} {k : Stack V .update} {i : Id}
    (hi : i ∈ (s.fail e k).focus.busy) : i ∈ k.busy := by
  revert hi
  refine State.fail_cases (P := fun d => i ∈ d.focus.busy → i ∈ k.busy) id ?_
  intro p report hp hreport hi
  rcases List.mem_cons.1 hi with rfl | hi
  · exact k.updated_mem_busy
  · exact hi

variable [BEq V]

/-- What is written is at work. -/
theorem mem_busy_of_written? {c : Config V} {i : Id} {v : V} (hwritten : c.written? = some (i, v)) :
    i ∈ c.focus.busy := by
  obtain ⟨old, _, ⟨j, k, hfocus, rfl, _⟩ | ⟨k, hfocus⟩⟩ := written?_cases hwritten
  · rw [hfocus]
    exact List.mem_cons_of_mem _ k.updated_mem_busy
  · rw [hfocus]
    exact List.mem_cons_self

/-- A step sets an object to work that a round was about to call, or one that has no source. -/
theorem Transition.busy {c d : Config V} (hc : c.Sound) (hmove : c.Transition d) {i : Id}
    (hi : i ∈ d.focus.busy) :
    i ∈ c.focus.busy ∨ (∃ r ∈ c.focus.pending, r.target? = some i) ∨
      (c.state.world.alive i = true ∧ c.state.world.relation? i = none) := by
  cases hmove with
  | act | setUnknown | setBound | notifyUnknown | wrapUnknown | wrap => exact .inl hi
  | @set s name j p k v hname hp hfree =>
    have hfrom : i = j ∨ i ∈ k.busy := by
      simpa [Focus.busy, Focus.frames, Stack.busy] using hi
    rcases hfrom with rfl | hk
    · refine .inr (.inr ⟨World.alive_of_shape? (World.shape?_eq_property_iff.2 ⟨p, hp⟩), ?_⟩)
      rw [World.relation?_of_property? hp, hfree]
      rfl
    · exact .inl hk
  | @notify s name observed j l k old new hname hobserved =>
    rcases List.mem_cons.1 hi with rfl | hk
    · have hbare := hc.world.shape?_of_set hname
      exact .inr (.inr ⟨World.alive_of_shape? hbare, World.relation?_of_bare hbare⟩)
    · exact .inl hk
  | resume | emit | perform => exact .inl hi
  | gone | unchanged | reported | announced => exact .inl (List.mem_cons_of_mem _ hi)
  | reject | announceFailed => exact .inl (List.mem_cons_of_mem _ (mem_busy_of_fail hi))
  | @write s k old v j hold hne =>
    left
    rcases List.mem_cons.1 hi with rfl | hk
    · exact List.mem_cons_of_mem _ k.updated_mem_busy
    · exact List.mem_cons_of_mem _ hk
  | setDone | followed | convertedGone | recomputed | notified =>
    exact .inl (List.mem_cons_of_mem _ hi)
  | wrapped | converted => exact .inl hi
  | roundDone | callGone | send | boundGone | derivedGone | listen => exact .inl hi
  | @deliver s j p rest observed old new k hp =>
    have hfrom : i = j ∨ i ∈ k.busy := by
      simpa [Focus.busy, Focus.frames, Stack.busy] using hi
    rcases hfrom with rfl | hk
    · exact .inr (.inl ⟨_, List.mem_cons_self, rfl⟩)
    · exact .inl hk
  | @convert s j b rest observed old new k hb =>
    rcases List.mem_cons.1 hi with rfl | hk
    · exact .inr (.inl ⟨_, List.mem_cons_self, rfl⟩)
    · exact .inl hk
  | listened | listenFailed | called | callFailed => exact .inl hi

/-! ## A closed group -/

/-- The members of a group, as they were at an earlier moment: no member is at work or about to be
called, those that live have kept their values, and their sources are members or dead. -/
structure Frozen (G : Id → Prop) (c₀ c : Config V) : Prop where
  size : ∀ i, G i → i < c.state.world.objects.size
  source : ∀ i, G i → c.state.world.alive i = true → ∃ u r,
    c.state.world.relation? i = some (u, r) ∧ (G u ∨ c.state.world.alive u = false)
  value : ∀ i, G i → c.state.world.alive i = true →
    c.state.world.value? i = c₀.state.world.value? i
  busy : ∀ i ∈ c.focus.busy, ¬ G i
  pending : ∀ r ∈ c.focus.pending, ∀ i, r.target? = some i → ¬ G i

variable {G : Id → Prop} {c₀ : Config V}

/-- Nothing is about to call a member, since it would come from the list of its source. -/
theorem Frozen.pending_step {c d : Config V} (hc : c.Sound) (hfrozen : Frozen G c₀ c)
    (hstep : c.step = some d) : ∀ r ∈ d.focus.pending, ∀ i, r.target? = some i → ¬ G i := by
  intro r hr i ht hi
  rcases Transition.pending hc (.of_step hstep) with hless | ⟨j, hannounced, hkind⟩
  · exact hfrozen.pending r (hless r hr) i ht hi
  · rcases hannounced r hr with hlist | hold
    · have hrelation := hc.world.linked.relation?_of_mem hlist ht
      obtain ⟨u, s, hsource, hmember⟩ :=
        hfrozen.source i hi (World.alive_of_relation? hrelation)
      rw [hrelation] at hsource
      cases hsource
      -- The list is that of the member's source, which lives and so is a member as well.
      rcases hmember with hj | hdead
      · rcases hkind with hbare | ⟨v, hwritten⟩
        · exact (hc.world.linked.source i j r hrelation).2 hbare
        · exact hfrozen.busy j (mem_busy_of_written? hwritten) hj
      · rw [World.alive_of_mem_registrations hlist] at hdead
        cases hdead
    · exact hfrozen.pending r hold i ht hi

theorem Frozen.busy_step {c d : Config V} (hc : c.Sound) (hfrozen : Frozen G c₀ c)
    (hstep : c.step = some d) : ∀ i ∈ d.focus.busy, ¬ G i := by
  intro i hi hmember
  rcases Transition.busy hc (.of_step hstep) hi with hold | ⟨r, hr, ht⟩ | ⟨halive, hfree⟩
  · exact hfrozen.busy i hold hmember
  · exact hfrozen.pending r hr i ht hmember
  · obtain ⟨u, r, hsource, _⟩ := hfrozen.source i hmember halive
    rw [hfree] at hsource
    cases hsource

theorem Frozen.step {c d : Config V} (hc : c.Sound) (hfrozen : Frozen G c₀ c)
    (hstep : c.step = some d) (hkept : ∀ i, G i → c.rebinding? ≠ some (i, none)) :
    Frozen G c₀ d := by
  have heffect := Effect.of_transition (.of_step hstep)
  refine ⟨?_, ?_, ?_, hfrozen.busy_step hc hstep, hfrozen.pending_step hc hstep⟩
  · intro i hi
    exact Nat.lt_of_lt_of_le (hfrozen.size i hi) heffect.size_objects_le
  · intro i hi halive
    obtain ⟨u, r, hsource, hmember⟩ :=
      hfrozen.source i hi (heffect.alive (hfrozen.size i hi) halive)
    refine ⟨u, r, relation?_kept hc hstep hsource halive (hkept i hi), hmember.imp_right ?_⟩
    intro hdead
    -- What is dead stays dead.
    cases halive' : d.state.world.alive u with
    | false => rfl
    | true =>
      rw [heffect.alive (hc.world.linked.source i u r hsource).1 halive'] at hdead
      cases hdead
  · intro i hi halive
    rw [← hfrozen.value i hi (heffect.alive (hfrozen.size i hi) halive)]
    apply heffect.value? (hfrozen.size i hi) halive
    intro v hwritten
    exact hfrozen.busy i (mem_busy_of_written? hwritten) hi

/-- A live property of the group refuses to be set. -/
theorem Frozen.step_set {c : Config V} (hc : c.Sound) (hfrozen : Frozen G c₀ c) {i : Id}
    (hi : G i) {name : String} {v : V} {k : Stack V .reply}
    (hfocus : c.focus = .operate (.set name v) k)
    (hname : c.state.world.find? name Handle.property? = some i) :
    c.step = some ⟨c.state, .reply (.failed .boundWrite) k⟩ := by
  have hshape := hc.world.shape?_of_property hname
  obtain ⟨p, hp⟩ := World.shape?_eq_property_iff.1 hshape
  obtain ⟨u, r, hsource, _⟩ := hfrozen.source i hi (World.alive_of_shape? hshape)
  have hbound := World.source_of_property? hp hsource
  exact step_set_bound hfocus hname hp (by rw [hbound]; rfl)

/-- Once nothing is in progress, a group of bound properties and bindings whose sources are members
or dead is frozen, as long as no member is released: no value of a member changes, no callback of a
member runs, no round of a member begins, and to set a member is refused. -/
theorem Run.frozen {allowed : Op V → Prop} {later before : List (Config V)} {c d : Config V}
    (hrun : Run allowed (later ++ c :: before) d) (hreply : c.reply?.isSome = true)
    (hclosed : ∀ i, G i → ∃ u r, c.state.world.relation? i = some (u, r) ∧
      (G u ∨ c.state.world.alive u = false))
    (hkept : ∀ e ∈ later, ∀ i, G i → e.rebinding? ≠ some (i, none)) :
    Frozen G c d ∧ ∀ i name v k, G i → d.focus = .operate (.set name v) k →
      d.state.world.find? name Handle.property? = some i →
      d.step = some ⟨d.state, .reply (.failed .boundWrite) k⟩ := by
  have hfrozen : Frozen G c d := by
    induction later generalizing d with
    | nil =>
      cases hrun with
      | step hrun hstep =>
        rw [(step_eq_none_iff c).2 hreply] at hstep
        cases hstep
      | perform hrun _ hop =>
        refine ⟨?_, fun i hi _ => hclosed i hi, fun _ _ _ => rfl, ?_, ?_⟩
        · intro i hi
          obtain ⟨u, r, hsource, _⟩ := hclosed i hi
          exact World.lt_size_of_alive (World.alive_of_relation? hsource)
        · intro i hi
          cases hi
        · intro r hr
          cases hr
    | cons e later ih =>
      have hkept' : ∀ e ∈ later, ∀ i, G i → e.rebinding? ≠ some (i, none) :=
        fun e he => hkept e (List.mem_cons_of_mem _ he)
      cases hrun with
      | step hrun hstep =>
        exact (ih hrun hkept').step hrun.sound hstep (hkept e List.mem_cons_self)
      | perform hrun _ hop =>
        have hbefore := ih hrun hkept'
        refine ⟨hbefore.size, hbefore.source, hbefore.value, ?_, ?_⟩
        · intro i hi
          cases hi
        · intro r hr
          cases hr
  refine ⟨hfrozen, ?_⟩
  intro i name v k hi hfocus hname
  exact hfrozen.step_set hrun.sound hi hfocus hname

/-- Two properties are bound to each other; the first has been set, and the second is to be set. -/
theorem frozen_circle : ∃ (later before : List (Config Bool)) (c d : Config Bool),
    Run (fun _ => True) (later ++ c :: before) d ∧ later.length = 2 ∧ c.reply?.isSome = true ∧
      c.state.world.relation? 0 = some (1, .bound 0) ∧
      c.state.world.relation? 1 = some (0, .bound 1) ∧
      Frozen (fun i => i = 0 ∨ i = 1) c d ∧
      d.step = some ⟨d.state, .reply (.failed .boundWrite) .idle⟩ := by
  have hp : Run (fun _ => True) _
      (start {} (.act (.property "p" false (fun v => .stop (.ok v)) none))) := .start trivial
  have hq : Run (fun _ => True) _
      (start _ (.act (.property "q" false (fun v => .stop (.ok v)) none))) :=
    (hp.step rfl).perform rfl trivial
  have hbind : Run (fun _ => True) _ (start _ (.act (.bind "p" "q"))) :=
    (hq.step rfl).perform rfl trivial
  have hback : Run (fun _ => True) _ (start _ (.act (.bind "q" "p"))) :=
    (hbind.step rfl).perform rfl trivial
  have hset : Run (fun _ => True) _ (start _ (.set "p" true)) :=
    (hback.step rfl).perform rfl trivial
  have hlast : Run (fun _ => True) ([_, _] ++ _ :: _) (start _ (.set "q" true)) :=
    (hset.step rfl).perform rfl trivial
  have hfrozen := hlast.frozen (G := fun i => i = 0 ∨ i = 1) rfl ?_ ?_
  · exact ⟨_, _, _, _, hlast, rfl, rfl, rfl, rfl, hfrozen.1,
      hfrozen.2 1 "q" true .idle (.inr rfl) rfl rfl⟩
  · rintro i (rfl | rfl)
    · exact ⟨1, .bound 0, rfl, .inl (.inr rfl)⟩
    · exact ⟨0, .bound 1, rfl, .inl (.inl rfl)⟩
  · intro e he i _ hreleased
    have hnone := (List.all_eq_true (p := fun e : Config Bool => e.rebinding?.isNone)).1
      (by rfl) e he
    rw [hreleased] at hnone
    cases hnone

end Config

end Observable
