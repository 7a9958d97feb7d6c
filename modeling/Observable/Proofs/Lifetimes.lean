import Observable.Proofs.Lifecycle
import Observable.Proofs.Holders

/-!
# Lifetimes

What lives and what does not is decided by handles and by what is in progress
(`Config.Run.alive_iff`). This file adds what a life means for the operations in progress, and what
a death means for everything else. An operation or a delivery that works on an object finds it alive
to the end, even if the last name of the object is dropped in the meantime, and only its own end can
then end the life. A death takes the object's own registration out of its source's list
(`World.Departs`); whatever depended on the object keeps its value and goes on being bound, and no
round of the dead object is ever in progress again.

`Config.Lifetimes` puts this together, and `Config.Run.lifetimes` says that it holds in every run.
-/

namespace Observable

variable {V : Type}

/-! ## Deaths -/

/-- Elements that occur at most once are erased wherever they are. -/
theorem erase_eq_filter_of_count_le_one {r : Registration} {l : List Registration}
    (hcount : l.count r ≤ 1) : l.erase r = l.filter (· != r) := by
  induction l with
  | nil => rfl
  | cons s l ih =>
    by_cases hs : s = r
    · subst hs
      rw [List.count_cons_self] at hcount
      have hnone : s ∉ l := List.count_eq_zero.1 (by omega)
      rw [List.erase_cons_head, List.filter_cons_of_neg (by simp), List.filter_eq_self.2]
      intro t ht
      simp only [bne_iff_ne]
      rintro rfl
      exact hnone ht
    · rw [List.count_cons_of_ne hs] at hcount
      rw [List.erase_cons_tail (by simpa using hs), List.filter_cons_of_pos (by simpa using hs),
        ih hcount]

namespace World

/-- A registration of a user, or one of an object that lives. -/
def survives (w : World V) (r : Registration) : Bool := r.target?.all w.alive

theorem survives_of_linked {w : World V} (hw : w.Linked) {j : Id} {r : Registration}
    (hr : r ∈ w.registrations j) : w.survives r = true := by
  unfold survives
  cases ht : r.target? with
  | none => rfl
  | some t => exact alive_of_relation? (hw.relation?_of_mem hr ht)

/-- Some lives of the first world have ended in the second, with their registrations, and nothing
else has happened to what lives on. -/
structure Departs (w w' : World V) : Prop where
  size : w.objects.size ≤ w'.objects.size
  body : ∀ j, j < w.objects.size → w'.alive j = true → w'.body? j = w.body? j
  registrations : ∀ j, j < w.objects.size → w'.alive j = true →
    w'.registrations j = (w.registrations j).filter w'.survives

theorem Departs.alive {w w' : World V} (h : w.Departs w') {j : Id} (hlt : j < w.objects.size)
    (halive : w'.alive j = true) : w.alive j = true := by
  obtain ⟨b, hb⟩ := alive_iff_body?.1 halive
  rw [h.body j hlt halive] at hb
  exact alive_iff_body?.2 ⟨b, hb⟩

/-- Nobody dies. -/
theorem Departs.of_objects {w w' : World V} (hw : w.Linked) (hobjects : w'.objects = w.objects) :
    w.Departs w' where
  size := Nat.le_of_eq (congrArg Table.size hobjects.symm)
  body := by
    intro j _ _
    unfold body? object?
    rw [hobjects]
  registrations := by
    intro j _ _
    have hsame : w'.registrations j = w.registrations j := by
      unfold World.registrations object?
      rw [hobjects]
    rw [hsame, List.filter_eq_self.2]
    intro r hr
    have halive : w'.alive = w.alive := by
      funext i
      unfold World.alive object?
      rw [hobjects]
    unfold survives
    rw [halive]
    exact survives_of_linked hw hr

/-- A birth ends no life. -/
theorem departs_create {w : World V} (hw : w.Linked) (b : Body V) : w.Departs (w.create b) where
  size := by simp
  body := by
    intro j hlt _
    rw [body?_create, if_neg (Nat.ne_of_lt hlt)]
  registrations := by
    intro j _ _
    rw [registrations_create, List.filter_eq_self.2]
    intro r hr
    unfold survives
    cases ht : r.target? with
    | none => rfl
    | some t =>
      have halive := alive_of_relation? (hw.relation?_of_mem hr ht)
      have hlt := lt_size_of_alive halive
      refine (alive_congr ?_).trans halive
      rw [shape?_create, if_neg (Nat.ne_of_lt hlt)]

theorem Departs.trans {w w' w'' : World V} (hw : w.Linked) (hfirst : w.Departs w')
    (hsecond : w'.Departs w'') : w.Departs w'' where
  size := Nat.le_trans hfirst.size hsecond.size
  body := by
    intro j hlt halive
    have hlt' := Nat.lt_of_lt_of_le hlt hfirst.size
    rw [hsecond.body j hlt' halive, hfirst.body j hlt (hsecond.alive hlt' halive)]
  registrations := by
    intro j hlt halive
    have hlt' := Nat.lt_of_lt_of_le hlt hfirst.size
    rw [hsecond.registrations j hlt' halive,
      hfirst.registrations j hlt (hsecond.alive hlt' halive), List.filter_filter]
    apply List.filter_congr
    intro r hr
    -- What survives both survives the first.
    cases hsurvives : w''.survives r with
    | false => rfl
    | true =>
      rw [Bool.true_and]
      unfold survives at hsurvives ⊢
      cases ht : r.target? with
      | none => rfl
      | some t =>
        rw [ht] at hsurvives
        have hold := lt_size_of_alive (alive_of_relation? (hw.relation?_of_mem hr ht))
        exact hsecond.alive (Nat.lt_of_lt_of_le hold hfirst.size) hsurvives

/-- With an object goes its registration, which is in one list, once. -/
theorem departs_bury {w : World V} (hw : w.Linked) (i : Id) : w.Departs (w.bury i) where
  size := Nat.le_of_eq (size_objects_bury w i).symm
  body := fun j _ halive => (outlived_bury w i).body j halive
  registrations := by
    intro j _ halive
    have hij : i ≠ j := by
      rintro rfl
      simp [World.alive, object?_bury_self] at halive
    -- Of what is registered, everything survives but the registration of `i`.
    have hsurvives : ∀ r ∈ w.registrations j,
        (w.bury i).survives r = true ↔ r.target? ≠ some i := by
      intro r hr
      unfold survives
      cases ht : r.target? with
      | none => simp
      | some t =>
        have hlive := alive_of_relation? (hw.relation?_of_mem hr ht)
        by_cases hti : i = t
        · subst hti
          simp [World.alive, object?_bury_self]
        · have hsame : (w.bury i).alive t = w.alive t := by
            apply alive_congr
            rw [shape?_bury, if_neg hti]
          simp [hsame, hlive, Ne.symm hti]
    rw [registrations_bury, if_neg hij]
    have hother : (∀ r ∈ w.registrations j, r.target? ≠ some i) →
        w.registrations j = (w.registrations j).filter (w.bury i).survives := by
      intro hnone
      rw [List.filter_eq_self.2]
      exact fun r hr => (hsurvives r hr).2 (hnone r hr)
    cases hrelation : w.relation? i with
    | none =>
      apply hother
      intro r hr ht
      rw [hw.relation?_of_mem hr ht] at hrelation
      cases hrelation
    | some x =>
      obtain ⟨u, s⟩ := x
      have htarget := target?_of_relation? hrelation
      by_cases hu : u = j
      · subst hu
        simp only [if_true]
        rw [erase_eq_filter_of_count_le_one (hw.count_le_one htarget)]
        apply List.filter_congr
        intro r hr
        rw [Bool.eq_iff_iff, hsurvives r hr, bne_iff_ne]
        refine not_congr ⟨fun h => ?_, fun h => ?_⟩
        · rw [h]
          exact htarget
        · have hsame := hw.relation?_of_mem hr h
          rw [hrelation] at hsame
          cases hsame
          rfl
      · simp only [if_neg hu]
        apply hother
        intro r hr ht
        rw [hw.relation?_of_mem hr ht] at hrelation
        cases hrelation
        exact hu rfl

theorem Linked.of_objects {w w' : World V} (hw : w.Linked) (hobjects : w'.objects = w.objects) :
    w'.Linked := by
  apply hw.congr
  · intro j t r _
    unfold World.registrations object?
    rw [hobjects]
  · intro j
    unfold shape? object?
    rw [hobjects]
  · intro t
    unfold World.relation? object?
    rw [hobjects]
  · rw [hobjects]

theorem Linked.release {w : World V} (hw : w.Linked) (held : List Id) (i : Id) :
    (w.release held i).Linked := by
  unfold World.release
  split
  · exact hw
  · exact hw.bury i

theorem departs_release {w : World V} (hw : w.Linked) (held : List Id) (i : Id) :
    w.Departs (w.release held i) := by
  unfold release
  split
  · exact .of_objects hw rfl
  · exact departs_bury hw i

theorem departs_discard {w : World V} (hw : w.Linked) (held : List Id) (h : Option Handle) :
    w.Departs (w.discard held h) := by
  unfold discard
  split
  · exact .of_objects hw rfl
  · exact departs_release hw held _

theorem Linked.discard {w : World V} (hw : w.Linked) (held : List Id) (h : Option Handle) :
    (w.discard held h).Linked := by
  unfold World.discard
  split
  · exact hw
  · exact hw.release held _

theorem departs_assign {w : World V} (hw : w.Linked) (held : List Id) (n : String) (h : Handle) :
    w.Departs (w.assign held n h) := by
  have hnames : ({ w with names := w.names.insert n h } : World V).Linked := hw.of_objects rfl
  refine Departs.trans hw ?_ (departs_discard hnames held _)
  exact .of_objects hw rfl

theorem Linked.assign {w : World V} (hw : w.Linked) (held : List Id) (n : String) (h : Handle) :
    (w.assign held n h).Linked := by
  have hnames : ({ w with names := w.names.insert n h } : World V).Linked := hw.of_objects rfl
  exact hnames.discard held _

theorem departs_forget {w : World V} (hw : w.Linked) (held : List Id) (n : String) :
    w.Departs (w.forget held n) := by
  have hnames : ({ w with names := w.names.erase n } : World V).Linked := hw.of_objects rfl
  refine Departs.trans hw ?_ (departs_discard hnames held _)
  exact .of_objects hw rfl

/-- An edit ends lives at most, or it changes a list and ends none. -/
theorem Edit.departs_or [BEq V] {w w' : World V} {held : List Id} {a : Action V}
    (hedit : w.Edit held a w') (hw : w.Linked) :
    w.Departs w' ∨ ((∀ i, w'.shape? i = w.shape? i) ∧
      ((w.addition? a).isSome ∨ (w.removal? a).isSome ∨ (w.rebinding? held a).isSome)) := by
  cases hedit with
  | read | drain => exact .inl (.of_objects hw rfl)
  | property name value validate report =>
    have hcreate := hw.create (b := .property ⟨value, validate, report, none⟩) fun _ => rfl
    exact .inl ((departs_create hw _).trans hw (departs_assign hcreate held _ _))
  | listenerSet name =>
    have hcreate := hw.create (b := (.bare : Body V)) fun _ => rfl
    exact .inl ((departs_create hw _).trans hw (departs_assign hcreate held _ _))
  | listener name body =>
    have hlinked : (w.createListener (.callback 0 body)).Linked := hw.of_objects rfl
    refine .inl (Departs.trans hw ?_ (departs_assign hlinked held _ _))
    exact .of_objects hw rfl
  | channel name receiver =>
    have hlinked : (w.createListener (.channel [] 0)).Linked := hw.of_objects rfl
    refine .inl (Departs.trans hw ?_ (departs_assign (hlinked.assign held _ _) held _ _))
    refine Departs.trans hw ?_ (departs_assign hlinked held _ _)
    exact .of_objects hw rfl
  | view | copy | weak => exact .inl (departs_assign hw held _ _)
  | drop => exact .inl (departs_forget hw held _)
  | bind hname htarget hp hfree hne =>
    refine .inr ⟨fun i => by rw [shape?_follow, shape?_register], .inr (.inr ?_)⟩
    rw [rebinding?_of_bind held hname htarget hp hne hfree]
    rfl
  | unbind hname hp hbound =>
    refine .inr ⟨fun i => by rw [shape?_unregister, shape?_follow], .inr (.inr ?_)⟩
    rw [rebinding?_of_unbind hw held hname hp hbound]
    rfl
  | add hadd => exact .inr ⟨fun i => shape?_register .., .inl (by rw [hadd]; rfl)⟩
  | remove hremove => exact .inr ⟨fun i => shape?_unregister .., .inr (.inl (by rw [hremove]; rfl))⟩

end World

namespace Config

variable [BEq V]

omit [BEq V] in
theorem size_objects_wrap (w : World V) (i : Id) (b : Body V) (r : Registration) :
    ((w.register i r).create b).objects.size = w.objects.size + 1 := by
  rw [World.size_objects_create]
  exact congrArg (· + 1) (World.size_objects_alter ..)

omit [BEq V] in
/-- A binding is made first; then its name and the end of the hold on its source may end lives. -/
theorem departs_wrap {s : State V} {source : Id} {name : String}
    {convert : V → Script V .converter} {v : V} {k : Stack V .reply}
    (hc : Sound ⟨s, .run (@Script.stop V .converter v) (.wrapping source name convert k)⟩) :
    ((s.world.register source (.derived s.world.objects.size)).create
      (.binding ⟨v, convert, source⟩)).Departs (s.wrap source name convert v k).state.world := by
  obtain ⟨hsource, hbare⟩ := World.alive_and_not_bare hc.frames.1
  have hborn : ((s.world.register source (.derived s.world.objects.size)).create
      (.binding ⟨v, convert, source⟩)).Linked := hc.world.linked.wrap v convert hsource hbare
  exact (World.departs_assign hborn (source :: k.holds) name
    (.binding s.world.objects.size)).trans hborn
      (World.departs_release (hborn.assign _ _ _) k.holds source)

omit [BEq V] in
/-- A binding that is made is what its name denotes. -/
theorem names_wrap (s : State V) (source : Id) (name : String)
    (convert : V → Script V .converter) (v : V) (k : Stack V .reply) :
    (s.wrap source name convert v k).state.world.names.find? name =
      some (.binding s.world.objects.size) := by
  simp [State.wrap, State.release, State.emit, Registry.find?_insert]

omit [BEq V] in
theorem Sound.alive_of_wrap {s : State V} {source : Id} {name : String}
    {convert : V → Script V .converter} {v : V} {k : Stack V .reply}
    (hd : (s.wrap source name convert v k).Sound) :
    (s.wrap source name convert v k).state.world.alive s.world.objects.size = true :=
  (hd.world.names name _ (names_wrap ..)).alive rfl

/-- What a step that ends a life makes of what lives on: it keeps its body, and its list keeps what
is still there. Only a binding that is made in the same step is registered. -/
theorem Transition.deaths {c d : Config V} (hc : c.Sound) (hmove : c.Transition d) {i : Id}
    (halive : c.state.world.alive i = true) (hdead : d.state.world.alive i = false) {j : Id}
    (hlt : j < c.state.world.objects.size) (hj : d.state.world.alive j = true) :
    d.state.world.body? j = c.state.world.body? j ∧
      ∃ new, d.state.world.registrations j =
          (c.state.world.registrations j).filter d.state.world.survives ++ new ∧
        (new = [] ∨ new = [.derived c.state.world.objects.size]) := by
  have hlinked := hc.world.linked
  have hdeparts : c.state.world.Departs d.state.world →
      d.state.world.body? j = c.state.world.body? j ∧
        ∃ new, d.state.world.registrations j =
            (c.state.world.registrations j).filter d.state.world.survives ++ new ∧
          (new = [] ∨ new = [.derived c.state.world.objects.size]) := by
    intro h
    refine ⟨h.body j hlt hj, [], ?_, .inl rfl⟩
    rw [h.registrations j hlt hj, List.append_nil]
  have hsame : d.state.world.alive i = c.state.world.alive i → False := by
    intro h
    rw [h, halive] at hdead
    cases hdead
  cases hmove with
  | act s a k =>
    rcases (s.world.edit_act k.holds a).departs_or hlinked with h | ⟨hshape, _⟩
    · exact hdeparts h
    · exact (hsame (World.alive_congr (hshape i))).elim
  | setDone | followed | convertedGone | recomputed =>
    exact hdeparts (World.departs_release hlinked _ _)
  | notified s r i j k =>
    have hfirst := World.departs_release hlinked k.holds i
    exact hdeparts (hfirst.trans hlinked (World.departs_release (hlinked.release _ _) _ _))
  | wrapped s source name convert v k =>
    obtain ⟨hsource, -⟩ := World.alive_and_not_bare hc.frames.1
    have h := departs_wrap hc
    have hlater : j < ((s.world.register source (.derived s.world.objects.size)).create
        (.binding ⟨v, convert, source⟩)).objects.size := by
      rw [size_objects_wrap]
      exact Nat.lt_succ_of_lt hlt
    refine ⟨?_, ?_⟩
    · exact (h.body j hlater hj).trans ((body?_wrap ..).trans (if_neg (Nat.ne_of_lt hlt)))
    · have hregistrations := h.registrations j hlater hj
      rw [World.registrations_create, World.registrations_register _ _ _ _ hsource]
        at hregistrations
      by_cases hsj : source = j
      · rw [if_pos hsj, List.filter_append] at hregistrations
        refine ⟨_, hregistrations, ?_⟩
        cases hnew : (s.wrap source name convert v k).state.world.survives
            (.derived s.world.objects.size) with
        | true => exact .inr (List.filter_cons_of_pos hnew)
        | false => exact .inl (List.filter_cons_of_neg (Bool.eq_false_iff.1 hnew))
      · rw [if_neg hsj] at hregistrations
        refine ⟨[], hregistrations.trans (List.append_nil _).symm, .inl rfl⟩
  | write | converted => exact (hsame (World.alive_congr (World.shape?_store ..))).elim
  | reject | announceFailed => exact (hsame (by rw [state_fail])).elim
  | _ => exact (hsame rfl).elim

/-- The registration of an object that dies is in the list of its source once before, and is not
there any more afterwards. -/
theorem count_relation_of_death {c d : Config V} (hc : c.Sound) (hd : d.Sound)
    (hstep : c.step = some d) {i u : Id} {r : Registration}
    (hrelation : c.state.world.relation? i = some (u, r))
    (hdead : d.state.world.alive i = false) (hu : d.state.world.alive u = true) :
    (c.state.world.registrations u).count r = 1 ∧ (d.state.world.registrations u).count r = 0 := by
  have htarget := World.target?_of_relation? hrelation
  have hlt := (hc.world.linked.source i u r hrelation).1
  have hbefore := (Effect.of_transition (.of_step hstep)).alive hlt hu
  rw [hc.world.linked.count u r i htarget, hd.world.linked.count u r i htarget,
    if_pos ⟨hbefore, hrelation⟩, if_neg]
  · exact ⟨rfl, rfl⟩
  · rintro ⟨_, hstill⟩
    rw [World.alive_of_relation? hstill] at hdead
    cases hdead

/-! ## Work that goes on -/

/-- A property is updated for the innermost frame of its update. -/
theorem Run.updating {allowed : Op V → Prop} {past : List (Config V)} {c : Config V}
    (hrun : Run allowed past c) {i : Id} {old : V} {k : Stack V .update}
    (hwaits : c.Waits (.updating i old k)) : i = k.updated := by
  induction hrun with
  | start hop => cases List.mem_singleton.1 hwaits
  | perform hrun hreply hop ih => cases List.mem_singleton.1 hwaits
  | step hrun hstep ih =>
    rcases (Transition.of_step hstep).pushes hwaits with hbefore | hpushes
    · exact ih hbefore
    · cases hpushes
      rfl

/-- A round in progress is one over the list of an object that lives. -/
theorem Run.alive_owner {allowed : Op V → Prop} {past : List (Config V)} {c : Config V}
    (hrun : Run allowed past c) {k : Stack V .round} (hwaits : c.Waits k) :
    c.state.world.alive k.owner = true := by
  apply hrun.sound.alive_of_holds
  apply Stack.mem_holds_of_mem_tails hwaits
  cases k with
  | updating i old k =>
    rw [show (Stack.updating i old k).owner = i from rfl, hrun.updating hwaits]
    exact Stack.updated_mem_holds k
  | notifying | recomputing => exact List.mem_cons_self

omit [BEq V] in
/-- What is being updated is a property that lives. -/
theorem fits_updated {shape : Id → Option Shape} {k : Stack V .update} (hk : k.Fits shape) :
    shape k.updated = some .property := by
  cases k <;> exact hk.1

/-- A validated value is compared with the stored one, and stored and announced if they differ. -/
theorem Sound.step_of_validated {c : Config V} (hc : c.Sound) {j : Id} {k : Stack V .update} {v : V}
    (hfocus : c.focus = .run (@Script.stop V .validator (.ok v)) (.validating j k)) :
    ∃ old, c.state.world.value? k.updated = some old ∧
      (((old == v) = true ∧ c.step = some ⟨c.state, .updated (.ok old) k⟩) ∨
        ((old == v) = false ∧ ∃ s, s.world = c.state.world.store k.updated v ∧
          c.step = some ⟨s, .round (c.state.world.registrations k.updated) k.updated old v
            (.updating k.updated old k)⟩)) := by
  obtain ⟨s, f⟩ := c
  cases hfocus
  obtain ⟨p, hp⟩ := World.shape?_eq_property_iff.1 (fits_updated hc.frames)
  have hold := World.value?_of_property? hp
  have hstep : step ⟨s, .run (@Script.stop V .validator (.ok v)) (.validating j k)⟩ =
      some (s.commit v k) := rfl
  rw [commit_eq hold v] at hstep
  refine ⟨p.value, hold, ?_⟩
  cases heq : p.value == v with
  | true =>
    rw [heq, if_pos rfl] at hstep
    exact .inl ⟨rfl, hstep⟩
  | false =>
    rw [heq, if_neg Bool.false_ne_true] at hstep
    exact .inr ⟨rfl, _, rfl, hstep⟩

/-- A converted value is stored and announced. -/
theorem Sound.step_of_converted {c : Config V} (hc : c.Sound) {i : Id} {k : Stack V .call} {v : V}
    (hfocus : c.focus = .run (@Script.stop V .converter v) (.converting i k)) :
    ∃ old s, c.state.world.value? i = some old ∧ s.world = c.state.world.store i v ∧
      c.step = some ⟨s, .round (c.state.world.registrations i) i old v (.recomputing i k)⟩ := by
  obtain ⟨s, f⟩ := c
  cases hfocus
  obtain ⟨b, hb⟩ := World.shape?_eq_binding_iff.1 hc.frames.1
  have hold := World.value?_of_binding? hb
  have hstep : step ⟨s, .run (@Script.stop V .converter v) (.converting i k)⟩ =
      some (s.recompute i v k) := rfl
  rw [recompute_eq hold v k] at hstep
  exact ⟨b.value, _, hold, rfl, hstep⟩

omit [BEq V] in
/-- Once a hold has ended, an object lives as long as a handle or another hold keeps it. -/
theorem alive_release (w : World V) (held : List Id) (i j : Id) :
    (w.release held i).alive j = true ↔
      w.alive j = true ∧ (i = j → w.names.holds i = true ∨ i ∈ held) := by
  unfold World.release
  split
  · next hheld =>
    rw [Bool.or_eq_true, List.contains_iff_mem] at hheld
    exact ⟨fun h => ⟨h, fun _ => hheld⟩, fun h => h.1⟩
  · next hfree =>
    rw [Bool.or_eq_true, List.contains_iff_mem] at hfree
    rw [World.alive_iff_shape?, World.alive_iff_shape?, World.shape?_bury]
    by_cases hij : i = j
    · subst hij
      simp [hfree]
    · simp [hij]

/-- What is dead stays dead. -/
theorem Run.dead {allowed : Op V → Prop} {later before : List (Config V)} {c₀ c : Config V}
    (hrun : Run allowed (later ++ c₀ :: before) c) {i : Id}
    (hlt : i < c₀.state.world.objects.size) (hdead : c₀.state.world.alive i = false) :
    c.state.world.alive i = false := by
  have hback : c.state.world.alive i = true → c₀.state.world.alive i = true := by
    induction later generalizing c with
    | nil =>
      cases hrun with
      | step _ hstep => exact (Effect.of_transition (.of_step hstep)).alive hlt
      | perform => exact id
    | cons d later ih =>
      cases hrun with
      | step hrun hstep =>
        have hlater := Nat.lt_of_lt_of_le hlt hrun.size_objects_le
        exact fun halive => ih hrun ((Effect.of_transition (.of_step hstep)).alive hlater halive)
      | perform hrun => exact ih (c := d) hrun
  rw [Bool.eq_false_iff] at hdead ⊢
  exact fun halive => hdead (hback halive)

omit [BEq V] in
theorem fail_eq {s : State V} {p : Property V} {k : Stack V .update}
    (hp : s.world.property? k.updated = some p) (e : Error) :
    s.fail e k =
      match p.report with
      | none => ⟨s, .updated (.error e) k⟩
      | some report => ⟨s, .run (report e) (.reporting k.updated e k)⟩ := by
  unfold State.fail
  rw [hp]
  rfl

/-- The failure of an update is told to the property's reporter, if it has one. -/
theorem Sound.step_of_failed {c : Config V} (hc : c.Sound) {e : Error} {k : Stack V .update}
    (hfailed : (∃ i old, c.focus = .rounded (.error e) (.updating i old k)) ∨
      ∃ j cause, e = cause.during .validation ∧
        c.focus = .run (@Script.stop V .validator (.error cause)) (.validating j k)) :
    ∃ p, c.state.world.property? k.updated = some p ∧
      c.step = some (match p.report with
        | none => ⟨c.state, .updated (.error e) k⟩
        | some report => ⟨c.state, .run (report e) (.reporting k.updated e k)⟩) := by
  obtain ⟨s, f⟩ := c
  rcases hfailed with ⟨i, old, hfocus⟩ | ⟨j, cause, rfl, hfocus⟩
  · cases hfocus
    obtain ⟨p, hp⟩ := World.shape?_eq_property_iff.1 (fits_updated hc.frames)
    exact ⟨p, hp, congrArg some (fail_eq hp e)⟩
  · cases hfocus
    obtain ⟨p, hp⟩ := World.shape?_eq_property_iff.1 (fits_updated hc.frames)
    exact ⟨p, hp, congrArg some (fail_eq hp _)⟩

/-! ## Lifetimes -/

/-- What the lives of objects depend on, and what depends on them, given the past of a run. -/
structure Lifetimes (past : List (Config V)) (c : Config V) : Prop where
  /-- An object lives exactly as long as a handle holds it, an operation in progress has looked it
  up, or a change is being delivered to it. -/
  alive : ∀ i, c.state.world.alive i = true ↔
    c.state.world.names.holds i = true ∨ LookedUp past c i ∨ Delivering past c i
  /-- A round in progress is one over the list of an object that lives. -/
  owner : ∀ k : Stack V .round, c.Waits k → c.state.world.alive k.owner = true
  /-- With names or without, a property that is being updated stores and announces what its
  validator returns, unless it has that value already. -/
  validated : ∀ j k v, c.focus = .run (@Script.stop V .validator (.ok v)) (.validating j k) →
    ∃ old, c.state.world.value? k.updated = some old ∧
      (((old == v) = true ∧ c.step = some ⟨c.state, .updated (.ok old) k⟩) ∨
        ((old == v) = false ∧ ∃ s, s.world = c.state.world.store k.updated v ∧
          c.step = some ⟨s, .round (c.state.world.registrations k.updated) k.updated old v
            (.updating k.updated old k)⟩))
  /-- The round that announces it goes on after a call that has ended well, -/
  goes : ∀ rest observed old new k, c.focus = .called (.ok ()) (.round rest observed old new k) →
    c.step = some ⟨c.state, .round rest observed old new k⟩
  /-- it fails with a call that has failed, -/
  fails : ∀ e rest observed old new k,
    c.focus = .called (.error e) (.round rest observed old new k) →
      c.step = some ⟨c.state, .rounded (.error e) k⟩
  /-- and it ends well when nothing is left to be called. -/
  completed : ∀ observed old new k, c.focus = .round [] observed old new k →
    c.step = some ⟨c.state, .rounded (.ok ()) k⟩
  /-- The update then ends with the value that it replaced. -/
  announced : ∀ i old k, c.focus = .rounded (.ok ()) (.updating i old k) →
    c.step = some ⟨c.state, .updated (.ok old) k⟩
  /-- Its reporter learns of a failure. -/
  failed : ∀ e k, ((∃ i old, c.focus = .rounded (.error e) (.updating i old k)) ∨
      ∃ j cause, e = cause.during .validation ∧
        c.focus = .run (@Script.stop V .validator (.error cause)) (.validating j k)) →
    ∃ p, c.state.world.property? k.updated = some p ∧
      c.step = some (match p.report with
        | none => ⟨c.state, .updated (.error e) k⟩
        | some report => ⟨c.state, .run (report e) (.reporting k.updated e k)⟩)
  /-- A binding that converts anew stores and announces the result. -/
  converted : ∀ i k v, c.focus = .run (@Script.stop V .converter v) (.converting i k) →
    ∃ old s, c.state.world.value? i = some old ∧ s.world = c.state.world.store i v ∧
      c.step = some ⟨s, .round (c.state.world.registrations i) i old v (.recomputing i k)⟩
  /-- `set` has its reply while the property lives, and only this may end the property's life. -/
  set : ∀ r i k, c.focus = .updated r (.setting i k) → c.state.world.alive i = true ∧
    ∃ d, c.step = some d ∧ d.focus = .reply (.ofUpdate r) k ∧
      ∀ j, d.state.world.alive j = true ↔ c.state.world.alive j = true ∧
        (i = j → c.state.world.names.holds i = true ∨ i ∈ k.holds)
  /-- So it is with a property that follows its source. -/
  followed : ∀ r i k, c.focus = .updated r (.following i k) → c.state.world.alive i = true ∧
    ∃ d, c.step = some d ∧ d.focus = .called (r.map fun _ => ()) k ∧
      ∀ j, d.state.world.alive j = true ↔ c.state.world.alive j = true ∧
        (i = j → c.state.world.names.holds i = true ∨ i ∈ k.holds)
  /-- So it is with a binding. -/
  recomputed : ∀ r i k, c.focus = .rounded r (.recomputing i k) → c.state.world.alive i = true ∧
    ∃ d, c.step = some d ∧ d.focus = .called r k ∧
      ∀ j, d.state.world.alive j = true ↔ c.state.world.alive j = true ∧
        (i = j → c.state.world.names.holds i = true ∨ i ∈ k.holds)
  /-- So it is with a set that an operation notifies. -/
  notified : ∀ r i j k, c.focus = .rounded r (.notifying i j k) → c.state.world.alive i = true ∧
    ∃ s, c.step = some ⟨s, .reply (.ofRound r) k⟩
  /-- What lives on when something dies keeps its value, its source and everything in its list but
  the registrations of the dead. -/
  survivors : ∀ d i j, c.step = some d → c.state.world.alive i = true →
    d.state.world.alive i = false → j < c.state.world.objects.size →
    d.state.world.alive j = true →
      d.state.world.body? j = c.state.world.body? j ∧
        ∃ new, d.state.world.registrations j =
            (c.state.world.registrations j).filter d.state.world.survives ++ new ∧
          (new = [] ∨ new = [.derived c.state.world.objects.size])
  /-- What dies loses its one registration with its source. -/
  unregistered : ∀ d i u r, c.step = some d → c.state.world.relation? i = some (u, r) →
    d.state.world.alive i = false → d.state.world.alive u = true →
      (c.state.world.registrations u).count r = 1 ∧ (d.state.world.registrations u).count r = 0
  /-- What is dead stays dead. No round over its list is in progress any more, so nothing is
  delivered from it; what depended on it goes on doing so until it is released. -/
  dead : ∀ later c₀ before i, past = later ++ c₀ :: before → i < c₀.state.world.objects.size →
    c₀.state.world.alive i = false →
      c.state.world.alive i = false ∧ (∀ k : Stack V .round, c.Waits k → k.owner ≠ i) ∧
        ∀ t r, c₀.state.world.relation? t = some (i, r) →
          (∀ d ∈ later ++ [c₀], d.rebinding? ≠ some (t, none)) →
          c.state.world.alive t = true → c.state.world.relation? t = some (i, r)
  /-- A bound property can be released, whether its source lives or not. -/
  unbind : ∀ name k t p, c.focus = .operate (.act (.unbind name)) k →
    c.state.world.find? name Handle.property? = some t → c.state.world.property? t = some p →
    p.source.isSome = true →
      ∃ s, c.step = some ⟨s, .reply (.done .unit) k⟩ ∧
        ∀ j, s.world.value? j = c.state.world.value? j

/-- In every run, whatever callbacks do, objects live and die as `Lifetimes` says. -/
theorem Run.lifetimes {allowed : Op V → Prop} {past : List (Config V)} {c : Config V}
    (hrun : Run allowed past c) : c.Lifetimes past := by
  have hc := hrun.sound
  have hheld : ∀ {i : Id}, i ∈ c.focus.holds → c.state.world.alive i = true := hc.alive_of_holds
  constructor
  case alive => exact hrun.alive_iff
  case owner => exact fun k => hrun.alive_owner
  case validated => exact fun j k v => hc.step_of_validated
  case goes =>
    intro rest observed old new k hfocus
    rw [Config.step, hfocus]
    rfl
  case fails =>
    intro e rest observed old new k hfocus
    rw [Config.step, hfocus]
    rfl
  case completed =>
    intro observed old new k hfocus
    rw [Config.step, hfocus]
  case announced =>
    intro i old k hfocus
    rw [Config.step, hfocus]
    rfl
  case failed => exact fun e k => hc.step_of_failed
  case converted => exact fun i k v => hc.step_of_converted
  case set =>
    intro r i k hfocus
    obtain ⟨s, f⟩ := c
    cases hfocus
    refine ⟨hheld List.mem_cons_self, _, rfl, ?_, alive_release _ _ _⟩
    cases r <;> rfl
  case followed =>
    intro r i k hfocus
    obtain ⟨s, f⟩ := c
    cases hfocus
    refine ⟨hheld List.mem_cons_self, _, rfl, ?_, alive_release _ _ _⟩
    cases r <;> rfl
  case recomputed =>
    intro r i k hfocus
    obtain ⟨s, f⟩ := c
    cases hfocus
    exact ⟨hheld List.mem_cons_self, _, rfl, rfl, alive_release _ _ _⟩
  case notified =>
    intro r i j k hfocus
    refine ⟨hheld ?_, step_of_notified hfocus⟩
    rw [Focus.holds, hfocus]
    exact List.mem_cons_self
  case survivors =>
    exact fun d i j hstep halive hdead hlt hj =>
      (Transition.of_step hstep).deaths hc halive hdead hlt hj
  case unregistered =>
    exact fun d i u r hstep hrelation hdead hu =>
      count_relation_of_death hc (hrun.step hstep).sound hstep hrelation hdead hu
  case dead =>
    rintro later c₀ before i rfl hlt hdead
    have hstill := hrun.dead hlt hdead
    refine ⟨hstill, fun k hwaits howner => ?_, fun t r hrelation hkept => ?_⟩
    · rw [← howner, hrun.alive_owner hwaits] at hstill
      cases hstill
    · exact (hrun.relation?_kept hrelation hkept).2
  case unbind =>
    intro name k t p hfocus hname hp hbound
    obtain ⟨s, hstep, _, hvalues⟩ := step_unbind hc hfocus hname hp
    rw [if_pos hbound] at hstep
    exact ⟨s, hstep, hvalues⟩

/-- A listener drops the last name of a property that is being set. The property lives until `set`
has its reply, the property that is bound to it still follows, and is bound to it afterwards. -/
theorem lifetimes_dropped : ∃ (past : List (Config Bool)) (c d : Config Bool),
    Run (fun _ => True) past c ∧ c.state.world.names.holds 0 = false ∧
      c.state.world.alive 0 = true ∧ c.step = some d ∧
      d.focus = .reply (.done (.value false)) .idle ∧ d.state.world.alive 0 = false ∧
      d.state.world.value? 1 = some true ∧ d.state.world.relation? 1 = some (0, .bound 1) ∧
      c.Lifetimes past ∧ d.Lifetimes (c :: past) := by
  have hsource : Run (fun _ => True) _
      (start {} (.act (.property "p" false (fun v => .stop (.ok v)) none))) := .start trivial
  have hproperty : Run (fun _ => True) _
      (start _ (.act (.property "q" false (fun v => .stop (.ok v)) none))) :=
    (hsource.step rfl).perform rfl trivial
  have hlistener : Run (fun _ => True) _ (start _ (.act (.listener "l" fun _ =>
      .perform (.act (.drop "p")) fun _ => .stop (.ok ())))) :=
    (hproperty.step rfl).perform rfl trivial
  have hadd : Run (fun _ => True) _ (start _ (.act (.add "p" "l"))) :=
    (hlistener.step rfl).perform rfl trivial
  have hbind : Run (fun _ => True) _ (start _ (.act (.bind "q" "p"))) :=
    (hadd.step rfl).perform rfl trivial
  have hset : Run (fun _ => True) _ (start _ (.set "p" true)) :=
    (hbind.step rfl).perform rfl trivial
  have hlast := hset.iterate 16
  exact ⟨_, _, _, hlast, rfl, rfl, rfl, rfl, rfl, rfl, rfl, hlast.lifetimes,
    (hlast.step rfl).lifetimes⟩

end Config

end Observable
