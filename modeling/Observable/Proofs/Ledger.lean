import Mathlib.Data.List.Count
import Observable.Proofs.Registrations
import Observable.Proofs.Lifetimes
import Observable.Proofs.Interference

/-!
# A list is the history of its entries

What stands in the list of a live object is what was ever put into it, in that order, without the
oldest entries that were taken out again (`Config.Run.ledger`). Entries are put in by users, by
properties that are bound and by bindings that are made; they are taken out by users, by properties
that are released and by ends of lives. What `remove`, `contains` and `count` reply is read off the
same two lists.

The argument has one lemma for each way in which a step changes a list (`Config.Posts`). A step
takes out only what is there, so what was put in later does not hide what was put in before
(`append_diff_of_count_le`).
-/

namespace Observable

variable {V : Type}

/-! ## Lists without their oldest entries -/

theorem append_diff_of_count_le {l m n : List Registration} (h : ∀ r, n.count r ≤ l.count r) :
    (l ++ m).diff n = l.diff n ++ m := by
  induction n generalizing l with
  | nil => rfl
  | cons r n ih =>
    have hr : r ∈ l := by
      have hpos := h r
      rw [List.count_cons_self] at hpos
      exact List.count_pos_iff.1 (by omega)
    rw [List.diff_cons, List.diff_cons, List.erase_append_left _ hr]
    apply ih
    intro s
    have hle := h s
    rw [List.count_cons] at hle
    rw [List.count_erase]
    omega

/-- What stands in a list once is taken out wherever it stands. -/
theorem diff_eq_filter {l n : List Registration} (h : ∀ r ∈ n, l.count r ≤ 1) :
    l.diff n = l.filter fun r => decide (r ∉ n) := by
  induction n generalizing l with
  | nil => simp
  | cons r n ih =>
    have hsingle := erase_eq_filter_of_count_le_one (h r List.mem_cons_self)
    have hrest : ∀ s ∈ n, (l.erase r).count s ≤ 1 := fun s hs =>
      Nat.le_trans ((List.erase_sublist).count_le s) (h s (List.mem_cons_of_mem _ hs))
    rw [List.diff_cons, ih hrest, hsingle, List.filter_filter]
    apply List.filter_congr
    intro s _
    by_cases hs : s = r <;> simp [hs]

/-- The registration, if it is one in the list of `i`. -/
def postedIn (i : Id) : Option (Id × Registration) → List Registration
  | some (j, r) => if j = i then [r] else []
  | none => []

namespace World

theorem registrations_register_of_ne (w : World V) {i j : Id} (hne : i ≠ j) (r : Registration) :
    (w.register i r).registrations j = w.registrations j := by
  unfold registrations register
  rw [object?_alter, if_neg hne]

/-- A property is bound to what a name denotes. -/
theorem target_of_rebinding? [BEq V] {w : World V} {held : List Id} {a : Action V} {i source : Id}
    (hrebinding : w.rebinding? held a = some (i, some source)) :
    ∃ target, w.find? target Handle.observable? = some source := by
  unfold rebinding? at hrebinding
  split at hrebinding
  · split at hrebinding
    · obtain ⟨j, _, htarget⟩ := Option.bind_eq_some_iff.1 hrebinding
      obtain ⟨source', hsource, hpair⟩ := Option.map_eq_some_iff.1 htarget
      cases hpair
      exact ⟨_, hsource⟩
    · obtain ⟨j, _, hpair⟩ := Option.map_eq_some_iff.1 hrebinding
      cases hpair
    · cases hrebinding
  · cases hrebinding

/-! ## A new list is empty -/

theorem sublist_registrations_bury (w : World V) (i j : Id) :
    ((w.bury i).registrations j).Sublist (w.registrations j) := by
  rw [registrations_bury]
  split
  · exact List.nil_sublist _
  · split
    · split
      · exact List.erase_sublist
      · exact .refl _
    · exact .refl _

theorem sublist_registrations_release (w : World V) (held : List Id) (i j : Id) :
    ((w.release held i).registrations j).Sublist (w.registrations j) := by
  unfold release
  split
  · exact .refl _
  · exact sublist_registrations_bury w i j

theorem sublist_registrations_discard (w : World V) (held : List Id) (h : Option Handle) (j : Id) :
    ((w.discard held h).registrations j).Sublist (w.registrations j) := by
  unfold discard
  split
  · exact .refl _
  · exact sublist_registrations_release ..

theorem sublist_registrations_assign (w : World V) (held : List Id) (n : String) (h : Handle)
    (j : Id) : ((w.assign held n h).registrations j).Sublist (w.registrations j) :=
  sublist_registrations_discard { w with names := w.names.insert n h } held _ j

/-- An object that an edit makes has an empty list. -/
theorem Edit.registrations_of_size_le {w w' : World V} {held : List Id} {a : Action V}
    (hedit : w.Edit held a w') {i : Id} (hsize : w.objects.size ≤ i) : w'.registrations i = [] := by
  have hnone := registrations_of_dead (object?_of_size_le hsize)
  have hold : w'.objects.size = w.objects.size → w'.registrations i = [] := fun heq =>
    registrations_of_dead (object?_of_size_le (Nat.le_trans (Nat.le_of_eq heq) hsize))
  cases hedit with
  | property | listenerSet =>
    refine List.eq_nil_of_sublist_nil ((sublist_registrations_assign ..).trans ?_)
    rw [registrations_create, hnone]
  | read | drain => exact hnone
  | listener => exact hold (size_objects_assign ..)
  | channel => exact hold ((size_objects_assign ..).trans (size_objects_assign ..))
  | view | copy | weak => exact hold (size_objects_assign ..)
  | drop => exact hold (size_objects_forget ..)
  | bind | unbind => exact hold ((size_objects_alter ..).trans (size_objects_alter ..))
  | add | remove => exact hold (size_objects_alter ..)

end World

namespace Stack

/-- The source of the binding that is made once the converter answers. -/
def wrapped? : {ρ : Role} → Stack V (.answer ρ) → Option Id
  | _, .wrapping source _ _ _ => some source
  | _, _ => none

end Stack

namespace Config

/-! ## What a step puts in and takes out -/

variable [BEq V]

/-- What the next step registers at the end of a list, and in which: a listener that a user adds, a
property that is bound, or a binding that is made. -/
def entered? (c : Config V) : Option (Id × Registration) :=
  match c.focus with
  | .operate (.act a) k =>
    match c.state.world.addition? a, c.state.world.rebinding? k.holds a with
    | some (i, l), _ => some (i, .listener l)
    | none, some (p, some source) => some (source, .bound p)
    | none, _ => none
  | .run (.stop _) k => k.wrapped?.map fun source => (source, .derived c.state.world.objects.size)
  | _ => none

/-- What the next step takes out of a list because a user asks for it, and of which: a listener that
is removed successfully, or a property that is released. -/
def withdrawn? (c : Config V) : Option (Id × Registration) :=
  match c.focus with
  | .operate (.act a) k =>
    match c.state.world.removal? a, c.state.world.rebinding? k.holds a with
    | some (i, l), _ => some (i, .listener l)
    | none, some (p, none) => c.state.world.relation? p
    | none, _ => none
  | _ => none

/-- What the next step puts into the list of `i`. -/
def entering (c : Config V) (i : Id) : List Registration := postedIn i c.entered?

/-- What the step from `c` to `d` takes out of the list of `i`: what a user asks for, and what is
registered there of objects that die. -/
def leaving (c d : Config V) (i : Id) : List Registration :=
  postedIn i c.withdrawn? ++
    (c.state.world.dependents i).filter fun r => !d.state.world.survives r

/-- Everything that was put into the list of `i`, in that order. -/
def entries (past : List (Config V)) (i : Id) : List Registration :=
  past.reverse.flatMap (·.entering i)

/-- Everything that was taken out of the list of `i` on the way to `d`, in that order. -/
def departures (d : Config V) : List (Config V) → Id → List Registration
  | [], _ => []
  | c :: past, i => departures c past i ++ c.leaving d i

/-- How often users added a listener to an object. -/
def adds (past : List (Config V)) (i : Id) (l : ListenerId) : Nat :=
  past.countP fun c => c.added? = some (i, l)

/-- How often users successfully removed a listener from an object. -/
def removes (past : List (Config V)) (i : Id) (l : ListenerId) : Nat :=
  past.countP fun c => c.removed? = some (i, l)

/-! ## One lemma for each way to change a list -/

/-- A step puts its entry at the end of the list of `i` and takes out the oldest of what leaves,
which is all there. -/
structure Posts (c d : Config V) (i : Id) : Prop where
  list : d.state.world.registrations i =
    (c.state.world.registrations i ++ c.entering i).diff (c.leaving d i)
  enough : ∀ r, (c.leaving d i).count r ≤
    (c.state.world.registrations i ++ c.entering i).count r

omit [BEq V] in
/-- What is called for by objects is in the list, once. -/
theorem count_dependents {w : World V} (hw : w.Linked) {i : Id} (halive : w.alive i = true)
    {r : Registration} (hr : r ∈ w.dependents i) :
    (w.dependents i).count r = 1 ∧ (w.registrations i).count r = 1 := by
  obtain ⟨t, ht⟩ := World.mem_dependents_iff.1 hr
  refine ⟨List.count_eq_one_of_mem (w.nodup_dependents i) hr, ?_⟩
  rw [hw.count i r t (World.target?_of_relation? ht), if_pos ⟨halive, ht⟩]

omit [BEq V] in
/-- Where nobody dies, no object is missing. -/
theorem dying_eq_nil (c : Config V) {d : Config V} (i : Id)
    (hsame : ∀ t, d.state.world.alive t = c.state.world.alive t) :
    (c.state.world.dependents i).filter (fun r => !d.state.world.survives r) = [] := by
  rw [List.filter_eq_nil_iff]
  intro r hr
  obtain ⟨t, ht⟩ := World.mem_dependents_iff.1 hr
  simp [World.survives, World.target?_of_relation? ht, hsame, World.alive_of_relation? ht]

omit [BEq V] in
/-- What belongs to objects that die is in the list. -/
theorem count_dying_le {w : World V} (hw : w.Linked) {i : Id} (halive : w.alive i = true)
    (w' : World V) (r : Registration) :
    ((w.dependents i).filter fun r => !w'.survives r).count r ≤ (w.registrations i).count r := by
  by_cases hr : r ∈ w.dependents i
  · obtain ⟨hdependents, hregistrations⟩ := count_dependents hw halive hr
    rw [hregistrations, ← hdependents]
    exact List.filter_sublist.count_le r
  · rw [List.count_eq_zero_of_not_mem fun h => hr (List.mem_of_mem_filter h)]
    exact Nat.zero_le _

omit [BEq V] in
/-- What is left of a list once objects have died is the list without what belonged to them. -/
theorem filter_survives {w : World V} (hw : w.Linked) {i : Id} (halive : w.alive i = true)
    (w' : World V) :
    (w.registrations i).filter w'.survives =
      (w.registrations i).diff ((w.dependents i).filter fun r => !w'.survives r) := by
  rw [diff_eq_filter fun r hr =>
    Nat.le_of_eq (count_dependents hw halive (List.mem_of_mem_filter hr)).2]
  apply List.filter_congr
  intro r hr
  rw [Bool.eq_iff_iff, decide_eq_true_iff, List.mem_filter, not_and, Bool.not_eq_true',
    Bool.not_eq_false]
  refine ⟨fun hsurvives _ => hsurvives, fun hobjects => ?_⟩
  -- Of what is registered, only objects can be missing.
  cases ht : r.target? with
  | none => simp [World.survives, ht]
  | some t => exact hobjects (World.mem_dependents_iff.2 ⟨t, hw.relation?_of_mem hr ht⟩)

/-- A step takes out only what belongs to objects that die. -/
theorem Posts.of_filter {c d : Config V} {i : Id} (hc : c.state.world.Linked)
    (halive : c.state.world.alive i = true) (hwithdrawn : c.withdrawn? = none)
    (hnew : ∀ r ∈ c.entering i, d.state.world.survives r = true)
    (hlist : d.state.world.registrations i =
      (c.state.world.registrations i ++ c.entering i).filter d.state.world.survives) :
    c.Posts d i := by
  have hleaving : c.leaving d i =
      (c.state.world.dependents i).filter fun r => !d.state.world.survives r := by
    simp [leaving, hwithdrawn, postedIn]
  have hle := count_dying_le hc halive d.state.world
  rw [← hleaving] at hle
  constructor
  · rw [hlist, List.filter_append, List.filter_eq_self.2 hnew, filter_survives hc halive,
      ← hleaving, append_diff_of_count_le hle]
  · intro r
    rw [List.count_append]
    exact Nat.le_trans (hle r) (Nat.le_add_right _ _)

/-- A step takes out one entry, and nobody dies. -/
theorem Posts.of_withdrawn {c d : Config V} {i j : Id} {r : Registration}
    (hwithdrawn : c.withdrawn? = some (j, r)) (hentered : c.entered? = none)
    (hsame : ∀ t, d.state.world.alive t = c.state.world.alive t)
    (hmem : j = i → r ∈ c.state.world.registrations i)
    (hlist : d.state.world.registrations i =
      if j = i then (c.state.world.registrations i).erase r else c.state.world.registrations i) :
    c.Posts d i := by
  have hentering : c.entering i = [] := by simp [entering, hentered, postedIn]
  have hleaving : c.leaving d i = if j = i then [r] else [] := by
    rw [leaving, c.dying_eq_nil i hsame, List.append_nil, hwithdrawn]
    rfl
  constructor
  · rw [hlist, hleaving, hentering, List.append_nil]
    split
    · rw [List.diff_cons, List.diff_nil]
    · rfl
  · intro s
    rw [hleaving, hentering, List.append_nil]
    by_cases hj : j = i
    · rw [if_pos hj, List.count_singleton]
      split
      · next hs =>
        rw [beq_iff_eq] at hs
        rw [← hs]
        exact List.count_pos_iff.2 (hmem hj)
      · exact Nat.zero_le _
    · rw [if_neg hj]
      exact Nat.zero_le _

/-- Nobody dies, and the entry of a step is at the end of the list. -/
theorem Posts.of_append {c d : Config V} {i : Id} (hc : c.state.world.Linked)
    (hd : d.state.world.Linked) (halive : c.state.world.alive i = true)
    (hwithdrawn : c.withdrawn? = none)
    (hlist : d.state.world.registrations i =
      c.state.world.registrations i ++ c.entering i) : c.Posts d i := by
  have hsurvive : ∀ r ∈ c.state.world.registrations i ++ c.entering i,
      d.state.world.survives r = true := by
    intro r hr
    rw [← hlist] at hr
    exact World.survives_of_linked hd hr
  refine .of_filter hc halive hwithdrawn ?_ ?_
  · exact fun r hr => hsurvive r (List.mem_append_right _ hr)
  · rw [hlist, List.filter_eq_self.2 hsurvive]

/-- A step ends lives at most. -/
theorem Posts.of_departs {c d : Config V} {i : Id} (hc : c.state.world.Linked)
    (hdeparts : c.state.world.Departs d.state.world) (halive : d.state.world.alive i = true)
    (hlt : i < c.state.world.objects.size) (hwithdrawn : c.withdrawn? = none)
    (hentered : c.entered? = none) : c.Posts d i := by
  have hentering : c.entering i = [] := by simp [entering, hentered, postedIn]
  refine .of_filter hc (hdeparts.alive hlt halive) hwithdrawn (by simp [hentering]) ?_
  rw [hentering, List.append_nil]
  exact hdeparts.registrations i hlt halive

section

variable {c d : Config V} {a : Action V} {k : Stack V .reply} {i j : Id}

/-- A user adds a listener. -/
theorem Posts.add {l : ListenerId} (hc : c.Sound) (hd : d.Sound)
    (hfocus : c.focus = .operate (.act a) k) (hstep : c.step = some d)
    (hadd : c.state.world.addition? a = some (j, l)) (halive : c.state.world.alive i = true) :
    c.Posts d i := by
  have hadded : c.added? = some (j, l) := by
    rw [added?, hfocus]
    exact hadd
  have hwithdrawn : c.withdrawn? = none := by
    unfold withdrawn?
    rw [hfocus]
    cases a with
    | add => simp [World.removal?, World.rebinding?]
    | _ => cases hadd
  refine .of_append hc.world.linked hd.world.linked halive hwithdrawn ?_
  rw [register_of_added? hstep hadded,
    World.registrations_register _ _ _ _ (hc.alive_of_added? hadded)]
  by_cases hi : j = i <;> simp [entering, entered?, hfocus, hadd, hi, postedIn]

/-- A user removes a listener. -/
theorem Posts.remove {l : ListenerId} (hfocus : c.focus = .operate (.act a) k)
    (hstep : c.step = some d) (hremove : c.state.world.removal? a = some (j, l))
    (halive : c.state.world.alive i = true) : c.Posts d i := by
  have hremoved : c.removed? = some (j, l) := by
    rw [removed?, hfocus]
    exact hremove
  have hentered : c.entered? = none := by
    unfold entered?
    rw [hfocus]
    cases a with
    | remove => simp [World.addition?, World.rebinding?]
    | _ => cases hremove
  have hwithdrawn : c.withdrawn? = some (j, .listener l) := by simp [withdrawn?, hfocus, hremove]
  have hworld := unregister_of_removed? hstep hremoved
  refine .of_withdrawn hwithdrawn hentered ?_ ?_ ?_
  · intro t
    rw [hworld]
    exact World.alive_congr (World.shape?_unregister ..)
  · rintro rfl
    exact mem_of_removed? hremoved halive
  · rw [hworld, World.registrations_unregister]

/-- A property is bound or released. -/
theorem Posts.rebind {x : Id × Option Id} (hc : c.Sound) (hd : d.Sound)
    (hfocus : c.focus = .operate (.act a) k) (hstep : c.step = some d)
    (hrebinding : c.state.world.rebinding? k.holds a = some x)
    (halive : c.state.world.alive i = true) : c.Posts d i := by
  obtain ⟨p, source⟩ := x
  have hlinked := hc.world.linked
  have hunlisted : c.state.world.addition? a = none ∧ c.state.world.removal? a = none := by
    cases a with
    | add | remove => simp [World.rebinding?] at hrebinding
    | _ => exact ⟨rfl, rfl⟩
  obtain ⟨e, k', rfl, hrebound⟩ :=
    hc.rebinding hstep (by rw [rebinding?, hfocus]; exact hrebinding)
  cases hrebound with
  | @bind _ source q hq hfree hne =>
    have hentered : c.entered? = some (source, .bound p) := by
      simp [entered?, hfocus, hunlisted, hrebinding]
    refine .of_append hlinked hd.world.linked halive ?_ ?_
    · simp [withdrawn?, hfocus, hunlisted, hrebinding]
    · rw [entering, hentered, World.registrations_follow]
      by_cases hi : source = i
      · subst hi
        simp [World.registrations_register _ _ _ _ halive, postedIn]
      · simp [World.registrations_register_of_ne _ hi, postedIn, hi]
  | @unbind _ source q hq hbound =>
    have hrelation : c.state.world.relation? p = some (source, .bound p) := by
      rw [World.relation?_of_property? hq, hbound]
      rfl
    have hwithdrawn : c.withdrawn? = some (source, .bound p) := by
      simp [withdrawn?, hfocus, hunlisted, hrebinding, hrelation]
    refine .of_withdrawn hwithdrawn ?_ ?_ ?_ ?_
    · simp [entered?, hfocus, hunlisted, hrebinding]
    · intro t
      exact World.alive_congr ((World.shape?_unregister ..).trans (World.shape?_follow ..))
    · rintro rfl
      exact hlinked.mem_of_relation? halive hrelation
    · rw [World.registrations_unregister, World.registrations_follow]

/-- An action is performed. -/
theorem Posts.act (hc : c.Sound) (hd : d.Sound) (hfocus : c.focus = .operate (.act a) k)
    (hstep : c.step = some d) (halive : d.state.world.alive i = true)
    (hlt : i < c.state.world.objects.size) : c.Posts d i := by
  have hbefore := (Effect.of_transition (.of_step hstep)).alive hlt halive
  cases hadd : c.state.world.addition? a with
  | some x => exact .add hc hd hfocus hstep hadd hbefore
  | none =>
    cases hremove : c.state.world.removal? a with
    | some x => exact .remove hfocus hstep hremove hbefore
    | none =>
      cases hrebinding : c.state.world.rebinding? k.holds a with
      | some x => exact .rebind hc hd hfocus hstep hrebinding hbefore
      | none =>
        rcases (edit_of_step hfocus hstep).departs_or hc.world.linked with hdeparts | ⟨_, hsome⟩
        · refine .of_departs hc.world.linked hdeparts halive hlt ?_ ?_
          · simp [withdrawn?, hfocus, hremove, hrebinding]
          · simp [entered?, hfocus, hadd, hrebinding]
        · simp [hadd, hremove, hrebinding] at hsome

end

/-- A binding is made, and the end of the hold on its source or a name that it takes over may end
lives. -/
theorem Posts.wrap {s : State V} {source : Id} {name : String}
    {convert : V → Script V .converter} {v : V} {k : Stack V .reply} {i : Id}
    (hc : Sound ⟨s, .run (@Script.stop V .converter v) (.wrapping source name convert k)⟩)
    (hd : (s.wrap source name convert v k).Sound)
    (halive : (s.wrap source name convert v k).state.world.alive i = true)
    (hlt : i < s.world.objects.size) :
    Posts ⟨s, .run (@Script.stop V .converter v) (.wrapping source name convert k)⟩
      (s.wrap source name convert v k) i := by
  obtain ⟨hsource, -⟩ := World.alive_and_not_bare hc.frames.1
  have hdeparts := departs_wrap hc
  have hborn : i < ((s.world.register source (.derived s.world.objects.size)).create
      (.binding ⟨v, convert, source⟩)).objects.size := by
    rw [size_objects_wrap]
    exact Nat.lt_succ_of_lt hlt
  have hstep : Config.step
      ⟨s, .run (@Script.stop V .converter v) (.wrapping source name convert k)⟩ =
        some (s.wrap source name convert v k) := rfl
  have hbefore := (Effect.of_transition (.of_step hstep)).alive hlt halive
  have hentering : entering
      ⟨s, .run (@Script.stop V .converter v) (.wrapping source name convert k)⟩ i =
        if source = i then [.derived s.world.objects.size] else [] := rfl
  refine .of_filter hc.world.linked hbefore rfl ?_ ?_
  · intro r hr
    rw [hentering] at hr
    split at hr
    · rw [List.mem_singleton.1 hr]
      exact hd.alive_of_wrap
    · cases hr
  · rw [hdeparts.registrations i hborn halive, World.registrations_create,
      World.registrations_register _ _ _ _ hsource, hentering]
    split
    · rfl
    · rw [List.append_nil]

/-- Every step posts what it puts in and takes out. -/
theorem Posts.of_step {c d : Config V} {i : Id} (hc : c.Sound) (hd : d.Sound)
    (hstep : c.step = some d) (halive : d.state.world.alive i = true)
    (hlt : i < c.state.world.objects.size) : c.Posts d i := by
  have hlinked := hc.world.linked
  have hbefore := (Effect.of_transition (.of_step hstep)).alive hlt halive
  have hsame : d.state.world.registrations i = c.state.world.registrations i →
      c.withdrawn? = none → c.entered? = none → c.Posts d i := by
    intro hlist hwithdrawn hentered
    refine .of_append hlinked hd.world.linked hbefore hwithdrawn ?_
    rw [hlist, entering, hentered]
    exact (List.append_nil _).symm
  cases Transition.of_step hstep with
  | act s a k => exact .act hc hd rfl hstep halive hlt
  | wrapped => exact .wrap hc hd halive hlt
  | setDone | followed | convertedGone | recomputed =>
    exact .of_departs hlinked (World.departs_release hlinked _ _) halive hlt rfl rfl
  | notified s r i j k =>
    have hfirst := World.departs_release hlinked k.holds i
    exact .of_departs hlinked
      (hfirst.trans hlinked (World.departs_release (hlinked.release _ _) _ _)) halive hlt rfl rfl
  | write | converted => exact hsame (World.registrations_store ..) rfl rfl
  | reject | announceFailed => exact hsame (by rw [state_fail]) rfl rfl
  | _ => exact hsame rfl rfl rfl

/-- An object that a step makes has an empty list. -/
theorem registrations_of_size_le {c d : Config V} (hc : c.Sound) (hstep : c.step = some d) {i : Id}
    (hsize : c.state.world.objects.size ≤ i) : d.state.world.registrations i = [] := by
  have hnone := World.registrations_of_dead (World.object?_of_size_le hsize)
  have hold : d.state.world.objects.size = c.state.world.objects.size →
      d.state.world.registrations i = [] := fun heq =>
    World.registrations_of_dead (World.object?_of_size_le (Nat.le_trans (Nat.le_of_eq heq) hsize))
  have heffect := Effect.of_transition (.of_step hstep)
  generalize hworld : d.state.world = w at heffect hold ⊢
  cases heffect with
  | same | count | send => exact hnone
  | store => exact (World.registrations_store ..).trans hnone
  | edit hfocus hedit => exact hedit.registrations_of_size_le hsize
  | release _ _ heq => exact hold heq
  | @wrap source name v convert k _ hfocus _ _ _ =>
    obtain ⟨s, f⟩ := c
    cases hfocus
    cases hstep
    subst hworld
    obtain ⟨hsource, -⟩ := World.alive_and_not_bare hc.frames.1
    have hne : source ≠ i := by
      rintro rfl
      exact Nat.not_lt_of_le hsize (World.lt_size_of_alive hsource)
    refine List.eq_nil_of_sublist_nil ((World.sublist_registrations_release ..).trans ?_)
    refine (World.sublist_registrations_assign ..).trans ?_
    rw [World.registrations_create, World.registrations_register_of_ne _ hne, hnone]

/-! ## Runs -/

omit [BEq V] in
theorem postedIn_eq_nil {i : Id} {x : Option (Id × Registration)}
    (hx : ∀ r, x ≠ some (i, r)) : postedIn i x = [] := by
  cases x with
  | none => rfl
  | some x =>
    obtain ⟨j, r⟩ := x
    rw [postedIn, if_neg]
    rintro rfl
    exact hx r rfl

/-- What is put into a list is put into the list of something that lives. -/
theorem Sound.alive_of_entered? {c : Config V} (hc : c.Sound) {i : Id} {r : Registration}
    (hentered : c.entered? = some (i, r)) : c.state.world.alive i = true := by
  unfold entered? at hentered
  split at hentered
  · next a k hfocus =>
    split at hentered
    · next hadd =>
      cases hentered
      exact hc.alive_of_added? (by rw [added?, hfocus]; exact hadd)
    · next hrebinding =>
      cases hentered
      obtain ⟨target, htarget⟩ := World.target_of_rebinding? hrebinding
      rcases hc.world.shape?_of_observable htarget with hshape | hshape
      · exact World.alive_of_shape? hshape
      · exact World.alive_of_shape? hshape
    · cases hentered
  · next ρ a k hfocus =>
    cases k with
    | wrapping source name convert k =>
      cases hentered
      have hframes := hc.frames
      rw [hfocus] at hframes
      exact (World.alive_and_not_bare hframes.1).1
    | _ => cases hentered
  · cases hentered

/-- What is taken out of a list is taken out of the list of something that is there or was there. -/
theorem Sound.lt_size_of_withdrawn? {c : Config V} (hc : c.Sound) {i : Id} {r : Registration}
    (hwithdrawn : c.withdrawn? = some (i, r)) : i < c.state.world.objects.size := by
  unfold withdrawn? at hwithdrawn
  split at hwithdrawn
  · next a k hfocus =>
    split at hwithdrawn
    · next hremove =>
      cases hwithdrawn
      exact hc.lt_size_of_removed? (by rw [removed?, hfocus]; exact hremove)
    · exact (hc.world.linked.source _ _ _ hwithdrawn).1
    · cases hwithdrawn
  · cases hwithdrawn

/-- A number that is not given yet has no entries. -/
theorem Sound.posts_of_size_le {c : Config V} (hc : c.Sound) (d : Config V) {i : Id}
    (hsize : c.state.world.objects.size ≤ i) : c.entering i = [] ∧ c.leaving d i = [] := by
  have hentering : c.entering i = [] := postedIn_eq_nil fun r hr =>
    Nat.not_lt_of_le hsize (World.lt_size_of_alive (hc.alive_of_entered? hr))
  have hwithdrawn : postedIn i c.withdrawn? = [] := postedIn_eq_nil fun r hr =>
    Nat.not_lt_of_le hsize (hc.lt_size_of_withdrawn? hr)
  have hdependents : c.state.world.dependents i = [] := by
    rw [List.eq_nil_iff_forall_not_mem]
    intro r hr
    obtain ⟨t, ht⟩ := World.mem_dependents_iff.1 hr
    exact Nat.not_lt_of_le hsize (hc.world.linked.source _ _ _ ht).1
  exact ⟨hentering, by rw [leaving, hwithdrawn, hdependents]; rfl⟩

/-- The list of a live object is what was put in without the oldest of what was taken out, and a
number that is not given yet has no history. -/
structure Posted (past : List (Config V)) (c : Config V) (i : Id) : Prop where
  list : c.state.world.alive i = true →
    c.state.world.registrations i = (entries past i).diff (departures c past i)
  enough : c.state.world.alive i = true →
    ∀ r, (departures c past i).count r ≤ (entries past i).count r
  fresh : c.state.world.objects.size ≤ i → entries past i = [] ∧ departures c past i = []

theorem entries_cons (c : Config V) (past : List (Config V)) (i : Id) :
    entries (c :: past) i = entries past i ++ c.entering i := by
  simp [entries]

theorem Posted.step {past : List (Config V)} {c d : Config V} {i : Id} (hc : c.Sound) (hd : d.Sound)
    (hposted : c.Posted past i) (hstep : c.step = some d) : d.Posted (c :: past) i := by
  have heffect := Effect.of_transition (.of_step hstep)
  by_cases hlt : i < c.state.world.objects.size
  · refine ⟨fun halive => ?_, fun halive r => ?_, fun hsize => ?_⟩
    · have hbefore := heffect.alive hlt halive
      rw [entries_cons, departures, List.diff_append,
        append_diff_of_count_le (hposted.enough hbefore), ← hposted.list hbefore]
      exact (Posts.of_step hc hd hstep halive hlt).list
    · have hbefore := heffect.alive hlt halive
      have hle := (Posts.of_step hc hd hstep halive hlt).enough r
      have hold := hposted.enough hbefore r
      rw [hposted.list hbefore, List.count_append, List.count_diff] at hle
      rw [entries_cons, departures, List.count_append, List.count_append]
      omega
    · exact absurd hlt (Nat.not_lt_of_le (Nat.le_trans heffect.size_objects_le hsize))
  · have hsize : c.state.world.objects.size ≤ i := Nat.le_of_not_lt hlt
    obtain ⟨hentries, hdepartures⟩ := hposted.fresh hsize
    obtain ⟨hentering, hleaving⟩ := hc.posts_of_size_le d hsize
    have hall : entries (c :: past) i = [] ∧ departures d (c :: past) i = [] := by
      rw [entries_cons, departures, hentries, hdepartures, hentering, hleaving]
      exact ⟨rfl, rfl⟩
    refine ⟨fun _ => ?_, fun _ r => ?_, fun _ => hall⟩
    · rw [registrations_of_size_le hc hstep hsize, hall.1, hall.2, List.diff_nil]
    · exact Nat.le_of_eq (by rw [hall.1, hall.2])

/-- An operation from outside begins without changing a list. -/
theorem entries_cons_of_reply {c : Config V} (hreply : c.reply?.isSome = true)
    (past : List (Config V)) (i : Id) : entries (c :: past) i = entries past i := by
  obtain ⟨r, hfocus⟩ := isSome_reply?_iff.1 hreply
  have hentered : c.entered? = none := by rw [entered?, hfocus]
  rw [entries_cons, entering, hentered]
  exact List.append_nil _

theorem departures_cons_of_reply {c : Config V} (hreply : c.reply?.isSome = true)
    (past : List (Config V)) (op : Op V) (i : Id) :
    departures (Config.start c.state op) (c :: past) i = departures c past i := by
  obtain ⟨r, hfocus⟩ := isSome_reply?_iff.1 hreply
  have hwithdrawn : c.withdrawn? = none := by rw [withdrawn?, hfocus]
  have hdying := c.dying_eq_nil (d := Config.start c.state op) i fun _ => rfl
  rw [departures, leaving, hwithdrawn, hdying]
  exact List.append_nil _

theorem Run.posted {allowed : Op V → Prop} {past : List (Config V)} {c : Config V}
    (hrun : Run allowed past c) (i : Id) : c.Posted past i := by
  induction hrun with
  | start hop =>
    refine ⟨fun halive => ?_, fun halive => ?_, fun _ => ⟨rfl, rfl⟩⟩
    · cases halive
    · cases halive
  | step hrun hstep ih => exact ih.step hrun.sound (hrun.step hstep).sound hstep
  | @perform past c op hrun hreply hop ih =>
    constructor
    · rw [entries_cons_of_reply hreply, departures_cons_of_reply hreply]
      exact ih.list
    · rw [entries_cons_of_reply hreply, departures_cons_of_reply hreply]
      exact ih.enough
    · rw [entries_cons_of_reply hreply, departures_cons_of_reply hreply]
      exact ih.fresh

/-! ## What users do -/

omit [BEq V] in
theorem count_postedIn (i : Id) (x : Option (Id × Registration)) (r : Registration) :
    (postedIn i x).count r = if x = some (i, r) then 1 else 0 := by
  cases x with
  | none => rfl
  | some x =>
    obtain ⟨j, s⟩ := x
    by_cases hj : j = i <;> by_cases hs : s = r <;> simp [postedIn, hj, hs]

theorem entered?_eq_listener_iff {c : Config V} {i : Id} {l : ListenerId} :
    c.entered? = some (i, .listener l) ↔ c.added? = some (i, l) := by
  unfold entered? added?
  cases c.focus with
  | operate op k =>
    cases op with
    | act a =>
      dsimp only
      cases c.state.world.addition? a with
      | some x => simp [Prod.ext_iff]
      | none =>
        cases c.state.world.rebinding? k.holds a with
        | none => simp
        | some x =>
          obtain ⟨p, source⟩ := x
          cases source <;> simp
    | _ => simp
  | run a k =>
    cases a with
    | stop a => cases k.wrapped? <;> simp
    | _ => simp
  | _ => simp

theorem withdrawn?_eq_listener_iff {c : Config V} {i : Id} {l : ListenerId} :
    c.withdrawn? = some (i, .listener l) ↔ c.removed? = some (i, l) := by
  unfold withdrawn? removed?
  cases c.focus with
  | operate op k =>
    cases op with
    | act a =>
      dsimp only
      cases c.state.world.removal? a with
      | some x => simp [Prod.ext_iff]
      | none =>
        cases c.state.world.rebinding? k.holds a with
        | none => simp
        | some x =>
          obtain ⟨p, source⟩ := x
          cases source with
          | some j => simp
          | none =>
            -- What a property is registered as is no listener.
            refine ⟨fun hrelation => ?_, fun h => by cases h⟩
            have htarget := World.target?_of_relation? hrelation
            cases htarget
    | _ => simp
  | _ => simp

/-- Users put in what they add. -/
theorem count_entries (past : List (Config V)) (i : Id) (l : ListenerId) :
    (entries past i).count (.listener l) = adds past i l := by
  induction past with
  | nil => rfl
  | cons c past ih =>
    rw [entries_cons, List.count_append, ih, adds, adds, List.countP_cons, entering,
      count_postedIn]
    simp only [entered?_eq_listener_iff, decide_eq_true_eq]

/-- Users take out what they remove successfully. -/
theorem count_departures (c : Config V) (past : List (Config V)) (i : Id) (l : ListenerId) :
    (departures c past i).count (.listener l) = removes past i l := by
  induction past generalizing c with
  | nil => rfl
  | cons d past ih =>
    have hnone : ((d.state.world.dependents i).filter
        fun r => !c.state.world.survives r).count (.listener l) = 0 := by
      rw [List.count_eq_zero]
      intro hmem
      obtain ⟨t, ht⟩ := World.mem_dependents_iff.1 (List.mem_of_mem_filter hmem)
      cases World.target?_of_relation? ht
    rw [departures, List.count_append, ih, removes, removes, List.countP_cons, leaving,
      List.count_append, hnone, Nat.add_zero, count_postedIn]
    simp only [withdrawn?_eq_listener_iff, decide_eq_true_eq]

/-- A live list has a listener as often as it was added and not removed. -/
theorem Run.count_listener {allowed : Op V → Prop} {past : List (Config V)} {c : Config V}
    (hrun : Run allowed past c) {i : Id} (halive : c.state.world.alive i = true)
    (l : ListenerId) :
    (c.state.world.registrations i).count (.listener l) + removes past i l = adds past i l := by
  have henough := (hrun.posted i).enough halive (.listener l)
  rw [count_departures, count_entries] at henough
  rw [(hrun.posted i).list halive, List.count_diff, count_entries, count_departures]
  exact Nat.sub_add_cancel henough

/-- A live list is as long as what was put in without what was taken out. -/
theorem Run.length_registrations {allowed : Op V → Prop} {past : List (Config V)} {c : Config V}
    (hrun : Run allowed past c) {i : Id} (halive : c.state.world.alive i = true) :
    (c.state.world.registrations i).length + (departures c past i).length =
      (entries past i).length := by
  have hperm := List.subperm_append_diff_self_of_count_le
    fun r _ => (hrun.posted i).enough halive r
  rw [← (hrun.posted i).list halive] at hperm
  rw [← hperm.length_eq, List.length_append, Nat.add_comm]

/-! ## Objects in a list -/

/-- A binding is registered when it is made, and not again. -/
theorem size_of_entered? {c d : Config V} (hstep : c.step = some d) {i b : Id}
    (hentered : c.entered? = some (i, .derived b)) :
    c.state.world.objects.size = b ∧ b < d.state.world.objects.size := by
  obtain ⟨s, f⟩ := c
  unfold entered? at hentered
  split at hentered
  · split at hentered
    · cases hentered
    · cases hentered
    · cases hentered
  · next ρ a k hfocus =>
    cases hfocus
    cases k with
    | wrapping source name convert k =>
      cases hentered
      cases hstep
      have hsize : (s.wrap i name convert a k).state.world.objects.size =
          s.world.objects.size + 1 := (World.size_objects_release ..).trans
          ((World.size_objects_assign ..).trans (size_objects_wrap ..))
      exact ⟨rfl, Nat.lt_of_lt_of_eq (Nat.lt_succ_self _) hsize.symm⟩
    | _ => cases hentered
  · cases hentered

theorem Run.entries_derived {allowed : Op V → Prop} {past : List (Config V)} {c : Config V}
    (hrun : Run allowed past c) (i b : Id) :
    (entries past i).count (.derived b) ≤ 1 ∧
      (c.state.world.objects.size ≤ b → (entries past i).count (.derived b) = 0) := by
  induction hrun with
  | start hop => exact ⟨Nat.zero_le _, fun _ => rfl⟩
  | @step past c d hrun hstep ih =>
    have hle := (Effect.of_transition (.of_step hstep)).size_objects_le
    rw [entries_cons, List.count_append, entering, count_postedIn]
    split
    · next hentered =>
      obtain ⟨hsize, hnext⟩ := size_of_entered? hstep hentered
      rw [ih.2 (Nat.le_of_eq hsize)]
      exact ⟨Nat.le_refl _, fun hb => absurd hnext (Nat.not_lt_of_le hb)⟩
    · refine ⟨ih.1, fun hb => ?_⟩
      exact ih.2 (Nat.le_trans hle hb)
  | perform _ hreply _ ih =>
    rw [entries_cons_of_reply hreply]
    exact ih

/-- What a user removes is a listener, so the objects of every list stay as they are. -/
theorem objects_of_removed? {c d : Config V} (hstep : c.step = some d) {i : Id}
    {l : ListenerId} (hremoved : c.removed? = some (i, l)) (j : Id) :
    (d.state.world.registrations j).filter (·.target?.isSome) =
      (c.state.world.registrations j).filter (·.target?.isSome) := by
  rw [unregister_of_removed? hstep hremoved, World.registrations_unregister]
  split
  · rw [← List.erase_filter, List.erase_of_not_mem]
    simp [Registration.target?]
  · rfl

/-! ## Listeners and their names -/

/-- The name that an action gives to a listener that it makes. -/
def introduces? : Action V → Option String
  | .listener name _ => some name
  | .channel name receiver => if name = receiver then none else some name
  | _ => none

omit [BEq V] in
theorem find?_listener_iff {w : World V} {name : String} {l : ListenerId} :
    w.find? name Handle.listener? = some l ↔ w.names.find? name = some (.listener l) := by
  constructor
  · intro hname
    obtain ⟨h, hfind, hl⟩ := World.names_find?_of_find? hname
    cases h with
    | listener => cases hl; exact hfind
    | _ => cases hl
  · intro hfind
    rw [World.find?, hfind]
    rfl

omit [BEq V] in
/-- No name denotes a listener that is not made yet. -/
theorem Sound.unnamed {c : Config V} (hc : c.Sound) (name : String) :
    c.state.world.names.find? name ≠ some (.listener c.state.world.listeners.size) := fun hname =>
  Nat.lt_irrefl _ (hc.world.names name _ hname)

/-- A listener that is made is denoted by its name and by no other. -/
theorem names_of_introduces? {c d : Config V} (hc : c.Sound) {a : Action V} {k : Stack V .reply}
    (hfocus : c.focus = .operate (.act a) k) (hstep : c.step = some d) {name : String}
    (hname : introduces? a = some name) (other : String) :
    d.state.world.find? other Handle.listener? = some c.state.world.listeners.size ↔
      other = name := by
  have hunnamed := hc.unnamed other
  rw [step_act hfocus] at hstep
  cases hstep
  rw [find?_listener_iff]
  cases a with
  | listener n body =>
    cases hname
    simp only [World.act, World.named, World.returns, World.replies, World.names_assign,
      Registry.find?_insert]
    split
    · next heq => exact iff_of_true rfl heq
    · next hne => exact iff_of_false hunnamed hne
  | channel n receiver =>
    rw [introduces?] at hname
    split at hname
    · cases hname
    · next hreceiver =>
      cases hname
      simp only [World.act, World.named, World.returns, World.replies, World.names_assign,
        Registry.find?_insert]
      split
      · next heq =>
        refine iff_of_false (by simp) ?_
        rintro rfl
        exact hreceiver heq
      · split
        · next heq => exact iff_of_true rfl heq
        · next hne => exact iff_of_false hunnamed hne
  | _ => cases hname

/-- A listener is made without being put into a list; its name may have kept an object alive. -/
theorem sublist_of_introduces? {c d : Config V} {a : Action V} {k : Stack V .reply}
    (hfocus : c.focus = .operate (.act a) k) (hstep : c.step = some d) {name : String}
    (hname : introduces? a = some name) (i : Id) :
    (d.state.world.registrations i).Sublist (c.state.world.registrations i) := by
  rw [step_act hfocus] at hstep
  cases hstep
  cases a with
  | listener n body => exact World.sublist_registrations_assign (c.state.world.createListener _) ..
  | channel n receiver =>
    exact (World.sublist_registrations_assign ..).trans
      (World.sublist_registrations_assign (c.state.world.createListener _) ..)
  | _ => cases hname

/-- A copy of a listener is the same listener. -/
theorem find?_of_copied {c d : Config V} {name copy : String} {k : Stack V .reply}
    (hfocus : c.focus = .operate (.act (.copy name copy)) k) (hstep : c.step = some d)
    {l : ListenerId} (hname : c.state.world.find? name Handle.listener? = some l) :
    d.state.world.find? copy Handle.listener? = some l := by
  rw [find?_listener_iff] at hname ⊢
  rw [step_act hfocus] at hstep
  cases hstep
  simp [World.act, World.withName, World.find?, hname, World.named, World.returns, World.replies,
    Registry.find?_insert]

/-! ## What users are told -/

omit [BEq V] in
theorem unregister_of_dead {w : World V} {i : Id} (hdead : w.alive i = false) (r : Registration) :
    w.unregister i r = w := by
  refine World.alter_of_same fun o ho => ?_
  rw [World.alive, ho] at hdead
  cases hdead

/-- The step in which a user removes a listener. -/
theorem step_remove {c : Config V} {name listener : String} {k : Stack V .reply}
    (hfocus : c.focus = .operate (.act (.remove name listener)) k) {i : Id}
    (hname : c.state.world.find? name Handle.numbered? = some i) {l : ListenerId}
    (hlistener : c.state.world.find? listener Handle.listener? = some l) :
    c.step = some
      (if c.state.world.alive i = true ∧ .listener l ∉ c.state.world.registrations i then
        ⟨c.state, .reply (.failed .missingListener) k⟩
      else ⟨{ c.state with world := c.state.world.unregister i (.listener l) },
        .reply (.done .unit) k⟩) := by
  rw [step_act hfocus]
  simp only [World.act, World.withName, hname, hlistener, World.remove, Bool.and_eq_true,
    Bool.not_eq_true', List.contains_eq_mem, decide_eq_false_iff_not]
  split <;> simp [World.replies, World.returns]

/-- What the past of a run says of its lists, and of what users are told of them next. -/
structure Ledger (past : List (Config V)) (c : Config V) : Prop where
  /-- A list is what was put in, in that order, without the oldest entries that were taken out. -/
  list : ∀ i, c.state.world.alive i = true →
    c.state.world.registrations i = (entries past i).diff (departures c past i)
  /-- Only what was put in is taken out. -/
  enough : ∀ i, c.state.world.alive i = true → ∀ r,
    (departures c past i).count r ≤ (entries past i).count r
  /-- A listener is put in when a user adds it, and taken out when a user removes it
  successfully. -/
  listeners : ∀ i l, (entries past i).count (.listener l) = adds past i l ∧
    (departures c past i).count (.listener l) = removes past i l
  /-- An object is put in once more than it is taken out while it is related to the owner of the
  list, and otherwise as often. -/
  objects : ∀ i, c.state.world.alive i = true → ∀ r t, r.target? = some t →
    (entries past i).count r = (departures c past i).count r +
      if c.state.world.relation? t = some (i, r) then 1 else 0
  /-- A binding is put in once. -/
  bindings : ∀ i b, (entries past i).count (.derived b) ≤ 1
  /-- What a user removes is no object. -/
  removed : ∀ d i l, c.step = some d → c.removed? = some (i, l) → ∀ j,
    (d.state.world.registrations j).filter (·.target?.isSome) =
      (c.state.world.registrations j).filter (·.target?.isSome)
  /-- A listener is missing if it was removed as often as it was added, and then nothing changes.
  Otherwise one more of it is taken out. -/
  remove : ∀ name listener k i l, c.focus = .operate (.act (.remove name listener)) k →
    c.state.world.find? name Handle.numbered? = some i →
    c.state.world.find? listener Handle.listener? = some l → c.state.world.alive i = true →
      (removes past i l = adds past i l →
        c.step = some ⟨c.state, .reply (.failed .missingListener) k⟩) ∧
      (removes past i l ≠ adds past i l → c.removed? = some (i, l) ∧
        c.step = some ⟨{ c.state with world := c.state.world.unregister i (.listener l) },
          .reply (.done .unit) k⟩)
  /-- What a user removes through a weak handle of something dead is never missing, and nothing
  changes. -/
  dead : ∀ name listener k i l, c.focus = .operate (.act (.remove name listener)) k →
    c.state.world.find? name Handle.numbered? = some i →
    c.state.world.find? listener Handle.listener? = some l → c.state.world.alive i = false →
      c.step = some ⟨c.state, .reply (.done .unit) k⟩
  /-- A list contains a listener that was added more often than it was removed. -/
  contains : ∀ name listener k i l, c.focus = .operate (.act (.contains name listener)) k →
    c.state.world.find? name Handle.listened? = some i →
    c.state.world.find? listener Handle.listener? = some l →
      c.step = some ⟨c.state, .reply (.done (.flag (decide (removes past i l < adds past i l)))) k⟩
  /-- The length of a list is the number of what was put in and not taken out. -/
  count : ∀ name k i, c.focus = .operate (.act (.count name)) k →
    c.state.world.find? name Handle.listened? = some i →
      (departures c past i).length ≤ (entries past i).length ∧
      c.step = some ⟨c.state, .reply (.done (.count
        ((entries past i).length - (departures c past i).length))) k⟩
  /-- A copy of a listener is the same listener. -/
  copied : ∀ d name copy k l, c.step = some d → c.focus = .operate (.act (.copy name copy)) k →
    c.state.world.find? name Handle.listener? = some l →
      d.state.world.find? copy Handle.listener? = some l
  /-- A listener that is made is no other listener that has a name or is in a list. -/
  made : ∀ d a k name, c.step = some d → c.focus = .operate (.act a) k →
    introduces? a = some name → ∃ l,
      (∀ other, d.state.world.find? other Handle.listener? = some l ↔ other = name) ∧
        ∀ i, .listener l ∉ d.state.world.registrations i

/-- In every moment of every run, whatever callbacks do and whichever rounds are in progress, the
lists are the history of their entries. -/
theorem Run.ledger {allowed : Op V → Prop} {past : List (Config V)} {c : Config V}
    (hrun : Run allowed past c) : c.Ledger past where
  list i := (hrun.posted i).list
  enough i := (hrun.posted i).enough
  listeners i l := ⟨count_entries past i l, count_departures c past i l⟩
  objects := by
    intro i halive r t ht
    have henough := (hrun.posted i).enough halive r
    have hcount := hrun.sound.world.linked.count i r t ht
    rw [(hrun.posted i).list halive, List.count_diff] at hcount
    simp only [halive, true_and] at hcount
    omega
  bindings i b := (hrun.entries_derived i b).1
  removed d i l hstep hremoved := objects_of_removed? hstep hremoved
  remove := by
    intro name listener k i l hfocus hname hlistener halive
    have hcount := hrun.count_listener halive l
    have hstep := step_remove hfocus hname hlistener
    refine ⟨fun heq => ?_, fun hne => ?_⟩
    · have hmissing : Registration.listener l ∉ c.state.world.registrations i := by
        rw [← List.count_eq_zero]
        omega
      rw [hstep, if_pos ⟨halive, hmissing⟩]
    · have hpresent : Registration.listener l ∈ c.state.world.registrations i := by
        rw [← List.count_pos_iff]
        omega
      rw [if_neg fun h => h.2 hpresent] at hstep
      refine ⟨?_, hstep⟩
      simp [removed?, hfocus, World.removal?, hname, hlistener, World.remove, hpresent,
        World.returns, World.replies, Reply.error?]
  dead := by
    intro name listener k i l hfocus hname hlistener hdead
    rw [step_remove hfocus hname hlistener, hdead, if_neg (by simp), unregister_of_dead hdead]
  contains := by
    intro name listener k i l hfocus hname hlistener
    have hcount := hrun.count_listener (hrun.sound.world.alive_of_listened hname) l
    have hmem : Registration.listener l ∈ c.state.world.registrations i ↔
        removes past i l < adds past i l := by
      rw [← List.count_pos_iff]
      omega
    rw [step_act hfocus]
    simp [World.act, World.withName, hname, hlistener, World.returns, World.replies, hmem]
  count := by
    intro name k i hfocus hname
    have hlength := hrun.length_registrations (hrun.sound.world.alive_of_listened hname)
    refine ⟨by omega, ?_⟩
    rw [step_act hfocus, ← hlength, Nat.add_sub_cancel]
    simp [World.act, World.withName, hname, World.returns, World.replies]
  copied d name copy k l hstep hfocus hname := find?_of_copied hfocus hstep hname
  made := by
    intro d a k name hstep hfocus hname
    refine ⟨_, names_of_introduces? hrun.sound hfocus hstep hname, fun i hmem => ?_⟩
    have hold := (sublist_of_introduces? hfocus hstep hname i).mem hmem
    exact Nat.lt_irrefl _ (hrun.lt_size_of_registered hold)

/-- Of a listener that was added before and after another one, the earlier entry is removed, and a
property that was bound in between leaves no gap. -/
theorem ledger_duplicates : ∃ (past : List (Config Bool)) (c : Config Bool),
    Run (fun _ => True) past c ∧ c.Ledger past ∧
      entries past 0 = [.listener 0, .bound 1, .listener 1, .listener 0] ∧
      departures c past 0 = [.listener 0, .bound 1] ∧
      c.state.world.registrations 0 = [.listener 1, .listener 0] := by
  have hp : Run (fun _ => True) _
      (start {} (.act (.property "p" false (fun v => .stop (.ok v)) none))) := .start trivial
  have hq : Run (fun _ => True) _
      (start _ (.act (.property "q" true (fun v => .stop (.ok v)) none))) :=
    (hp.step rfl).perform rfl trivial
  have hl : Run (fun _ => True) _ (start _ (.act (.channel "l" "r"))) :=
    (hq.step rfl).perform rfl trivial
  have hm : Run (fun _ => True) _ (start _ (.act (.channel "m" "t"))) :=
    (hl.step rfl).perform rfl trivial
  have hadd : Run (fun _ => True) _ (start _ (.act (.add "p" "l"))) :=
    (hm.step rfl).perform rfl trivial
  have hbind : Run (fun _ => True) _ (start _ (.act (.bind "q" "p"))) :=
    (hadd.step rfl).perform rfl trivial
  have hother : Run (fun _ => True) _ (start _ (.act (.add "p" "m"))) :=
    (hbind.step rfl).perform rfl trivial
  have hagain : Run (fun _ => True) _ (start _ (.act (.add "p" "l"))) :=
    (hother.step rfl).perform rfl trivial
  have hremove : Run (fun _ => True) _ (start _ (.act (.remove "p" "l"))) :=
    (hagain.step rfl).perform rfl trivial
  have hunbind : Run (fun _ => True) _ (start _ (.act (.unbind "q"))) :=
    (hremove.step rfl).perform rfl trivial
  have hlast := hunbind.step rfl
  exact ⟨_, _, hlast, hlast.ledger, rfl, rfl, rfl⟩

end Config

end Observable
