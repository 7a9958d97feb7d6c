import Observable.Proofs.Rebinding
import Observable.Proofs.Waiting

/-!
# Who writes a property

A property is written by a call of `set` that found it free, or by a round that found its
registration in the list of the observable it was bound to (`Config.Run.writer`). Both are looked up
once, when the call or the round begins; the frames that wait remember it (`Stack.Caused`), however
deeply callbacks perform operations in between.

A round calls what was registered when it began. So a listener may release a property, or bind it
anew, while the round has still to call the property's former registration, and then the property is
written once more with a value of its former source (`Config.written_after_release`). A property
that was not released since the round began is still bound to the observable that the round
announces.
-/

namespace Observable

variable {V : Type} [BEq V]

namespace Config

/-- A round over the list of the object that the frames of `k` announce began with `r` in that list:
`new` was stored in that object, or it is a set that belongs to no observable. -/
def Began (past : List (Config V)) (r : Registration) (new : V) (k : Stack V .round) : Prop :=
  Since past k fun c₀ => r ∈ c₀.state.world.registrations k.owner ∧
    (c₀.state.world.shape? k.owner = some .bare ∨ c₀.written? = some (k.owner, new))

/-- `set` was called on a free property. -/
def Admitted (past : List (Config V)) (i : Id) (k : Stack V .reply) : Prop :=
  Since past (.setting i k) fun c₀ => ∃ name v, c₀.focus = .operate (.set name v) k ∧
    c₀.state.world.find? name Handle.property? = some i ∧ c₀.state.world.isBound i = false

end Config

open Config

/-- The call that the innermost frame waits for goes back to the beginning of a round with `r`. -/
def Stack.Calls (past : List (Config V)) (r : Registration) : Stack V .call → Prop
  | .round _ _ _ new below => Began past r new below

/-- The frames that call a registration go back to the beginning of a round with that registration,
and those that set a property to a call of `set` which found it free. -/
def Stack.Caused (past : List (Config V)) : {a : Awaits} → Stack V a → Prop
  | _, .idle => True
  | _, .script _ below => below.Caused past
  | _, .setting i below => Admitted past i below ∧ below.Caused past
  | _, .following i below => below.Calls past (.bound i) ∧ below.Caused past
  | _, .validating _ below => below.Caused past
  | _, .reporting _ _ below => below.Caused past
  | _, .converting _ below => below.Caused past
  | _, .wrapping _ _ _ below => below.Caused past
  | _, .listening below => below.Caused past
  | _, .round rest _ _ new below => (∀ r ∈ rest, Began past r new below) ∧ below.Caused past
  | _, .notifying _ _ below => below.Caused past
  | _, .updating _ _ below => below.Caused past
  | _, .recomputing _ below => below.Caused past

/-- What the frames remember lies one moment further back once another moment has passed. -/
theorem Stack.Caused.cons {past : List (Config V)} {c : Config V} {a : Awaits} {k : Stack V a}
    (hk : k.Caused past) (hwaits : ∀ x ∈ k.tails, c.Waits x.2) : k.Caused (c :: past) := by
  induction k with
  | idle => trivial
  | setting i k ih =>
    have hhere := hwaits _ List.mem_cons_self
    exact ⟨Since.cons hk.1 hhere, ih hk.2 fun x hx => hwaits x (List.mem_cons_of_mem _ hx)⟩
  | following i k ih =>
    refine ⟨?_, ih hk.2 fun x hx => hwaits x (List.mem_cons_of_mem _ hx)⟩
    cases k with
    | round rest observed old new k =>
      have hround : ⟨_, k⟩ ∈ (round rest observed old new k).tails :=
        List.mem_cons_of_mem _ (mem_tails_self k)
      exact Since.cons hk.1 (hwaits _ (List.mem_cons_of_mem _ hround))
  | round rest observed old new k ih =>
    have hround := hwaits _ (List.mem_cons_of_mem _ (mem_tails_self k))
    exact ⟨fun r hr => Since.cons (hk.1 r hr) hround,
      ih hk.2 fun x hx => hwaits x (List.mem_cons_of_mem _ hx)⟩
  | _ =>
    rename_i ih
    exact ih hk fun x hx => hwaits x (List.mem_cons_of_mem _ hx)

namespace Config

theorem caused_fail {past : List (Config V)} {s : State V} {e : Error} {k : Stack V .update}
    (hk : k.Caused past) : (s.fail e k).focus.frames.2.Caused past :=
  State.fail_cases (P := fun d => d.focus.frames.2.Caused past) hk fun _ _ _ _ => hk

/-- A round that begins has everything in it that is in the list. -/
theorem began_of_written? {past : List (Config V)} {c : Config V} {i : Id} {new : V}
    (hwritten : c.written? = some (i, new)) {k : Stack V .round} (howner : k.owner = i) :
    ∀ r ∈ c.state.world.registrations i, Began (c :: past) r new k := by
  intro r hr
  subst howner
  exact .of_last k ⟨hr, .inr hwritten⟩

theorem caused_transition {past : List (Config V)} {c d : Config V} (hc : c.Sound)
    (hcaused : c.focus.frames.2.Caused past) (hmove : c.Transition d) :
    d.focus.frames.2.Caused (c :: past) := by
  have hk : c.focus.frames.2.Caused (c :: past) := hcaused.cons fun x hx => hx
  cases hmove with
  | act | setUnknown | setBound | notifyUnknown | wrapUnknown | wrap => exact hk
  | @set s name i p k v hname hp hfree =>
    refine ⟨.of_last _ ⟨name, v, rfl, hname, ?_⟩, hk⟩
    simp [World.isBound, hp, hfree]
  | @notify s name observed i j k old new hname hobserved =>
    refine ⟨fun r hr => .of_last _ ⟨hr, .inl (hc.world.shape?_of_set hname)⟩, hk⟩
  | resume | emit | perform => exact hk
  | gone | unchanged | reported | announced => exact hk
  | reject | announceFailed => exact caused_fail hk
  | write i hold hne => exact ⟨began_of_written? (written?_validated i hold hne) rfl, hk⟩
  | setDone | followed => exact hk.2
  | wrapped | convertedGone | recomputed => exact hk
  | converted v k hold => exact ⟨began_of_written? (written?_converted hold) rfl, hk⟩
  | roundDone | callFailed => exact hk.2
  | callGone | send | listen | boundGone | derivedGone | convert =>
    exact ⟨fun r hr => hk.1 r (List.mem_cons_of_mem _ hr), hk.2⟩
  | deliver =>
    exact ⟨hk.1 _ List.mem_cons_self, fun r hr => hk.1 r (List.mem_cons_of_mem _ hr), hk.2⟩
  | listened | listenFailed | called | notified => exact hk

theorem Run.caused {allowed : Op V → Prop} {past : List (Config V)} {c : Config V}
    (hrun : Run allowed past c) : c.focus.frames.2.Caused past := by
  induction hrun with
  | start hop => trivial
  | step hrun hstep ih => exact caused_transition hrun.sound ih (.of_step hstep)
  | perform hrun hreply hop ih => trivial

/-! ## Writes -/

/-- A property is written when its validator has answered: for `set`, or for a round that follows
its source. -/
theorem frames_of_written? {c : Config V} (hc : c.Sound) {i : Id} {v : V}
    (hwritten : c.written? = some (i, v)) (hshape : c.state.world.shape? i = some .property) :
    (∃ j k, c.focus.frames = ⟨_, .validating j (.setting i k)⟩) ∨
      ∃ j rest observed old new k,
        c.focus.frames = ⟨_, .validating j (.following i (.round rest observed old new k))⟩ := by
  obtain ⟨old, _, ⟨j, k, hfocus, rfl, _⟩ | ⟨k, hfocus⟩⟩ := written?_cases hwritten
  · have hframes : c.focus.frames = ⟨_, .validating j k⟩ := by
      rw [hfocus]
      rfl
    cases k with
    | setting i k => exact .inl ⟨j, k, hframes⟩
    | following i k =>
      cases k with
      | round rest observed old new k => exact .inr ⟨j, rest, observed, old, new, k, hframes⟩
  · -- What is converted is a binding.
    have hfits := hc.frames
    rw [hfocus] at hfits
    have hbinding : c.state.world.shape? i = some .binding := hfits.1
    rw [hbinding] at hshape
    cases hshape

/-- Whatever callbacks do, what writes a property is either a call of `set` that found it free, or a
round that began with a write to the observable to which it was bound at that moment. If it has not
been released since, it is still bound to that observable. -/
theorem Run.writer {allowed : Op V → Prop} {past : List (Config V)} {c : Config V}
    (hrun : Run allowed past c) {i : Id} {v : V} (hwritten : c.written? = some (i, v))
    (hshape : c.state.world.shape? i = some .property) :
    (∃ j k, c.focus.frames = ⟨_, .validating j (.setting i k)⟩ ∧ Admitted past i k) ∨
      ∃ j rest observed old new k,
        c.focus.frames = ⟨_, .validating j (.following i (.round rest observed old new k))⟩ ∧
        ∃ later c₀ before, past = later ++ c₀ :: before ∧ (∀ d ∈ later, d.Waits k) ∧
          c₀.written? = some (k.owner, new) ∧
          c₀.state.world.relation? i = some (k.owner, .bound i) ∧
          ((∀ d ∈ later ++ [c₀], d.rebinding? ≠ some (i, none)) →
            c.state.world.relation? i = some (k.owner, .bound i)) := by
  have hcaused := hrun.caused
  rcases frames_of_written? hrun.sound hwritten hshape with ⟨j, k, hframes⟩ |
    ⟨j, rest, observed, old, new, k, hframes⟩
  · left
    rw [hframes] at hcaused
    exact ⟨j, k, hframes, hcaused.1⟩
  · right
    rw [hframes] at hcaused
    obtain ⟨later, c₀, before, rfl, ⟨hmem, hbegin⟩, hwaits⟩ := hcaused.1
    have hlinked := hrun.of_append.sound.world.linked
    have hrelation := hlinked.relation?_of_mem hmem rfl
    refine ⟨j, rest, observed, old, new, k, hframes, later, c₀, before, rfl, hwaits, ?_, hrelation,
      ?_⟩
    · exact hbegin.resolve_left (hlinked.source i k.owner _ hrelation).2
    · intro hkept
      exact (hrun.relation?_kept hrelation hkept).2 (World.alive_of_shape? hshape)

/-- A change of the source is delivered to a property that was bound before it. -/
theorem writer_follower : ∃ (past : List (Config Bool)) (c : Config Bool),
    Run (fun _ => True) past c ∧ c.written? = some (1, true) ∧
      c.state.world.shape? 1 = some .property ∧
      ((∃ j k, c.focus.frames = ⟨_, .validating j (.setting 1 k)⟩ ∧ Admitted past 1 k) ∨
        ∃ j rest observed old new k,
          c.focus.frames = ⟨_, .validating j (.following 1 (.round rest observed old new k))⟩ ∧
          ∃ later c₀ before, past = later ++ c₀ :: before ∧ (∀ d ∈ later, d.Waits k) ∧
            c₀.written? = some (k.owner, new) ∧
            c₀.state.world.relation? 1 = some (k.owner, .bound 1) ∧
            ((∀ d ∈ later ++ [c₀], d.rebinding? ≠ some (1, none)) →
              c.state.world.relation? 1 = some (k.owner, .bound 1))) := by
  have hsource : Run (fun _ => True) _
      (start {} (.act (.property "p" false (fun v => .stop (.ok v)) none))) := .start trivial
  have hproperty : Run (fun _ => True) _
      (start _ (.act (.property "q" false (fun v => .stop (.ok v)) none))) :=
    (hsource.step rfl).perform rfl trivial
  have hbind : Run (fun _ => True) _ (start _ (.act (.bind "q" "p"))) :=
    (hproperty.step rfl).perform rfl trivial
  have hset : Run (fun _ => True) _ (start _ (.set "p" true)) :=
    (hbind.step rfl).perform rfl trivial
  have hlast := hset.iterate 3
  exact ⟨_, _, hlast, rfl, rfl, hlast.writer rfl rfl⟩

/-- A listener that comes first in a round releases a property which the round has still to call:
the property is written although it is free. -/
theorem written_after_release : ∃ (past : List (Config Bool)) (c : Config Bool),
    Run (fun _ => True) past c ∧ c.written? = some (1, true) ∧
      c.state.world.shape? 1 = some .property ∧ c.state.world.isBound 1 = false ∧
      (past.any fun d => d.rebinding? == some (1, none)) = true ∧
      ∃ j k, c.focus.frames = ⟨_, .validating j (.following 1 k)⟩ := by
  have hsource : Run (fun _ => True) _
      (start {} (.act (.property "p" false (fun v => .stop (.ok v)) none))) := .start trivial
  have hproperty : Run (fun _ => True) _
      (start _ (.act (.property "q" false (fun v => .stop (.ok v)) none))) :=
    (hsource.step rfl).perform rfl trivial
  have hlistener : Run (fun _ => True) _ (start _ (.act (.listener "l" fun _ =>
      .perform (.act (.unbind "q")) fun _ => .stop (.ok ())))) :=
    (hproperty.step rfl).perform rfl trivial
  have hadd : Run (fun _ => True) _ (start _ (.act (.add "p" "l"))) :=
    (hlistener.step rfl).perform rfl trivial
  have hbind : Run (fun _ => True) _ (start _ (.act (.bind "q" "p"))) :=
    (hadd.step rfl).perform rfl trivial
  have hset : Run (fun _ => True) _ (start _ (.set "p" true)) :=
    (hbind.step rfl).perform rfl trivial
  have hlast := hset.iterate 9
  exact ⟨_, _, hlast, rfl, rfl, rfl, rfl, _, _, rfl⟩

end Config

end Observable
