import Observable.Run
import Observable.Proofs.Holding
import Observable.Proofs.Transition

/-!
# Waiting frames hold what they work on

The frames that wait in a configuration hold objects, and these live and are of the right kind
(`Stack.Fits`): a property that is set or follows its source is a property, and so on. Together with
a sound world this is `Config.Sound`, which holds of every reachable configuration
(`Config.Reachable.sound`), however deeply callbacks perform operations inside one another.
-/

namespace Observable

variable {V : Type}

namespace Stack

/-- Every frame works on objects of its kind. -/
def Fits (shape : Id → Option Shape) : {a : Awaits} → Stack V a → Prop
  | _, .idle => True
  | _, .script _ below => below.Fits shape
  | _, .setting i below => shape i = some .property ∧ below.Fits shape
  | _, .following i below => shape i = some .property ∧ below.Fits shape
  | _, .validating _ below => below.Fits shape
  | _, .reporting _ _ below => below.Fits shape
  | _, .converting i below => shape i = some .binding ∧ below.Fits shape
  | _, .wrapping i _ _ below =>
    (shape i = some .property ∨ shape i = some .binding) ∧ below.Fits shape
  | _, .listening below => below.Fits shape
  | _, .round _ _ _ _ below => below.Fits shape
  | _, .notifying i j below =>
    shape i = some .bare ∧ (shape j = some .property ∨ shape j = some .binding) ∧
      below.Fits shape
  | _, .updating _ _ below => below.Fits shape
  | _, .recomputing i below => shape i = some .binding ∧ below.Fits shape

/-- The frames fit as long as the objects that they hold stay what they are. -/
theorem Fits.mono {shape shape' : Id → Option Shape} {a : Awaits} {k : Stack V a}
    (hk : k.Fits shape) (hsame : ∀ i ∈ k.holds, ∀ x, shape i = some x → shape' i = some x) :
    k.Fits shape' := by
  induction k with
  | idle => trivial
  | script _ _ ih => exact ih hk hsame
  | validating _ _ ih => exact ih hk hsame
  | reporting _ _ _ ih => exact ih hk hsame
  | listening _ ih => exact ih hk hsame
  | round _ _ _ _ _ ih => exact ih hk hsame
  | updating _ _ _ ih => exact ih hk hsame
  | setting i _ ih =>
    exact ⟨hsame i List.mem_cons_self _ hk.1,
      ih hk.2 fun j hj => hsame j (List.mem_cons_of_mem _ hj)⟩
  | following i _ ih =>
    exact ⟨hsame i List.mem_cons_self _ hk.1,
      ih hk.2 fun j hj => hsame j (List.mem_cons_of_mem _ hj)⟩
  | converting i _ ih =>
    exact ⟨hsame i List.mem_cons_self _ hk.1,
      ih hk.2 fun j hj => hsame j (List.mem_cons_of_mem _ hj)⟩
  | recomputing i _ ih =>
    exact ⟨hsame i List.mem_cons_self _ hk.1,
      ih hk.2 fun j hj => hsame j (List.mem_cons_of_mem _ hj)⟩
  | wrapping i _ _ _ ih =>
    exact ⟨hk.1.imp (hsame i List.mem_cons_self _) (hsame i List.mem_cons_self _),
      ih hk.2 fun j hj => hsame j (List.mem_cons_of_mem _ hj)⟩
  | notifying i j below ih =>
    have hj : j ∈ (notifying i j below).holds := List.mem_cons_of_mem _ List.mem_cons_self
    exact ⟨hsame i List.mem_cons_self _ hk.1, hk.2.1.imp (hsame j hj _) (hsame j hj _),
      ih hk.2.2 fun l hl => hsame l (List.mem_cons_of_mem _ (List.mem_cons_of_mem _ hl))⟩

/-- The registrations that the rounds in progress have still to call. -/
def pending : {a : Awaits} → Stack V a → List Registration
  | _, .idle => []
  | _, .script _ below => below.pending
  | _, .setting _ below => below.pending
  | _, .following _ below => below.pending
  | _, .validating _ below => below.pending
  | _, .reporting _ _ below => below.pending
  | _, .converting _ below => below.pending
  | _, .wrapping _ _ _ below => below.pending
  | _, .listening below => below.pending
  | _, .round rest _ _ _ below => rest ++ below.pending
  | _, .notifying _ _ below => below.pending
  | _, .updating _ _ below => below.pending
  | _, .recomputing _ below => below.pending

end Stack

namespace Focus

/-- The frames that wait, with the round that is about to go on among them. -/
def frames : Focus V → (a : Awaits) × Stack V a
  | .operate _ k => ⟨_, k⟩
  | .reply _ k => ⟨_, k⟩
  | .run _ k => ⟨_, k⟩
  | .round rest observed old new k => ⟨_, .round rest observed old new k⟩
  | .called _ k => ⟨_, k⟩
  | .rounded _ k => ⟨_, k⟩
  | .updated _ k => ⟨_, k⟩

/-- The objects that operations in progress hold. -/
def holds (f : Focus V) : List Id := f.frames.2.holds

def Fits (shape : Id → Option Shape) (f : Focus V) : Prop := f.frames.2.Fits shape

def pending (f : Focus V) : List Registration := f.frames.2.pending

end Focus

namespace Config

structure Sound (c : Config V) : Prop where
  world : c.state.world.Sound c.focus.holds
  frames : c.focus.Fits c.state.world.shape?

/-- Ending a hold leaves the objects that are still held as they are. -/
theorem fits_release {shape : Id → Option Shape} {w : World V} {i : Id} {a : Awaits}
    {k : Stack V a} (hshape : shape = w.shape?) (hk : k.Fits shape) :
    k.Fits (w.release k.holds i).shape? := by
  apply hk.mono
  intro j hj x hx
  rw [World.shape?_release_of_mem hj, ← hshape]
  exact hx

theorem Sound.wrapped {s : State V} {i : Id} {name : String} {convert : V → Script V .converter}
    {k : Stack V .reply} (hw : s.world.Sound (i :: k.holds))
    (hk : (Stack.wrapping i name convert k).Fits s.world.shape?) (v : V) :
    (s.wrap i name convert v k).Sound := by
  refine ⟨hw.wrap v convert hk.1 name, fits_release rfl (hk.2.mono ?_)⟩
  intro j hj x hx
  have hsize : (s.world.register i (.derived s.world.objects.size)).objects.size
      = s.world.objects.size := World.size_objects_alter ..
  refine (World.shape?_assign_of_mem (List.mem_cons_of_mem _ hj) _ _).trans ?_
  rw [World.shape?_create, hsize, if_neg (Nat.ne_of_lt (World.lt_size_of_shape? hx)),
    World.shape?_register]
  exact hx

/-- A set and the observable whose change it announces are two objects. -/
theorem Sound.notified {w : World V} {i j : Id} {k : Stack V .reply}
    (hw : w.Sound (i :: j :: k.holds)) (hk : (Stack.notifying i j k).Fits w.shape?) :
    (w.release k.holds i).Sound (j :: k.holds) := by
  have hne : i ≠ j := by
    rintro rfl
    rcases hk.2.1 with h | h
    · exact absurd (hk.1.symm.trans h) (by simp)
    · exact absurd (hk.1.symm.trans h) (by simp)
  -- So the hold on the observable makes no difference to the end of the hold on the set.
  have hrelease : w.release k.holds i = w.release (j :: k.holds) i := by
    simp [World.release, hne]
  rw [hrelease]
  exact hw.release

/-- A failing update holds what the update held. -/
theorem Sound.fail {s : State V} {k : Stack V .update} (hw : s.world.Sound k.holds)
    (hk : k.Fits s.world.shape?) (e : Error) : (s.fail e k).Sound :=
  State.fail_cases ⟨hw, hk⟩ fun _ _ _ _ => ⟨hw, hk⟩

variable [BEq V]

theorem Sound.transition {c d : Config V} (hc : c.Sound) (hmove : c.Transition d) : d.Sound := by
  obtain ⟨hw, hk⟩ := hc
  cases hmove with
  | act s a k =>
    have hedit := s.world.edit_act k.holds a
    exact ⟨hedit.sound hw, hk.mono fun i hi x hx => hedit.shape?_of_mem hi hx⟩
  | set v hname hp hfree =>
    exact ⟨hw.mono fun _ hi => List.mem_cons_of_mem _ hi, hw.shape?_of_property hname, hk⟩
  | notify old new hname hobserved =>
    exact ⟨hw.mono fun _ hi => List.mem_cons_of_mem _ (List.mem_cons_of_mem _ hi),
      hw.shape?_of_set hname, hw.shape?_of_observable hobserved, hk⟩
  | wrap as convert hname hv =>
    exact ⟨hw.mono fun _ hi => List.mem_cons_of_mem _ hi, hw.shape?_of_observable hname, hk⟩
  | setUnknown | setBound | notifyUnknown | wrapUnknown => exact ⟨hw, hk⟩
  | resume | emit | perform => exact ⟨hw, hk⟩
  | gone | unchanged | reported | announced => exact ⟨hw, hk⟩
  | write i hold hne =>
    refine ⟨hw.store _ _, hk.mono ?_⟩
    intro j _ x hx
    exact (World.shape?_store ..).trans hx
  | reject s i c k => exact Sound.fail hw hk _
  | announceFailed s i old e k => exact Sound.fail hw hk e
  | setDone s r i k => exact ⟨hw.release, fits_release rfl hk.2⟩
  | followed s r i k => exact ⟨hw.release, fits_release rfl hk.2⟩
  | wrapped s i name convert v k => exact Sound.wrapped hw hk v
  | convertedGone v k hgone => exact ⟨hw.release, fits_release rfl hk.2⟩
  | converted v k hold =>
    refine ⟨hw.store _ _, (World.shape?_store ..).trans hk.1, hk.2.mono ?_⟩
    intro j _ x hx
    exact (World.shape?_store ..).trans hx
  | recomputed s r i k => exact ⟨hw.release, fits_release rfl hk.2⟩
  | roundDone | callGone | boundGone | derivedGone => exact ⟨hw, hk⟩
  | send rest observed old new k hl => exact ⟨hw.alterListener _ _, hk⟩
  | listen rest observed old new k hl => exact ⟨hw.alterListener _ _, hk⟩
  | deliver rest observed old new k hp =>
    exact ⟨hw.mono fun _ hi => List.mem_cons_of_mem _ hi, World.shape?_eq_property_iff.2 ⟨_, hp⟩,
      hk⟩
  | convert rest observed old new k hb =>
    exact ⟨hw.mono fun _ hi => List.mem_cons_of_mem _ hi, World.shape?_eq_binding_iff.2 ⟨_, hb⟩,
      hk⟩
  | listened | listenFailed | called | callFailed => exact ⟨hw, hk⟩
  | notified s r i j k =>
    exact ⟨(Sound.notified hw hk).release, fits_release rfl (fits_release rfl hk.2.2)⟩

omit [BEq V] in
theorem sound_start (op : Op V) : (start {} op).Sound where
  world := by
    refine ⟨World.linked_empty, ?_, ?_⟩
    · intro n h hfind
      cases hfind
    · intro i halive
      cases halive
  frames := trivial

omit [BEq V] in
theorem Sound.perform {c : Config V} (hc : c.Sound) (hreply : c.reply?.isSome = true)
    (op : Op V) : (start c.state op).Sound := by
  obtain ⟨s, f⟩ := c
  obtain ⟨r, hfocus⟩ := isSome_reply?_iff.1 hreply
  cases hfocus
  exact ⟨hc.world, hc.frames⟩

theorem Sound.next {c d : Config V} (hc : c.Sound) (hnext : Next c d) : d.Sound := by
  cases hnext with
  | step hstep => exact hc.transition (.of_step hstep)
  | perform op hreply => exact hc.perform hreply op

/-- Whatever callbacks do, every reachable configuration is sound. -/
theorem Reachable.sound {c : Config V} (hc : Reachable c) : c.Sound := by
  induction hc with
  | start op => exact sound_start op
  | next _ hnext ih => exact ih.next hnext

end Config

end Observable
