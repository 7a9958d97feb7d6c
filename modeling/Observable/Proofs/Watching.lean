import Mathlib.Data.List.Basic
import Observable.Proofs.History

/-!
# A world with one more observer

Two worlds are compared of which the second has one more listener, the sending end of a channel,
which is registered once in the list of one object (`World.Watched`). Listeners that were created
after it have the next greater number (`shift`), and apart from that the worlds agree on everything:
the objects and their numbers, their bodies, the order of their lists, and what names denote.

Every action keeps the two worlds like this, announces the same, and replies the same, unless it
shows how long the list of the watched object is (`World.Watched.act`).
-/

namespace Observable

variable {V : Type}

/-! ## Numbers -/

/-- The number of a listener once there is one more, with the number `m`. -/
def shift (m l : Nat) : Nat := if l < m then l else l + 1

theorem shift_ne (m l : ListenerId) : shift m l ≠ m := by
  unfold shift
  split <;> omega

theorem shift_injective (m : ListenerId) : Function.Injective (shift m) := by
  intro l l' h
  unfold shift at h
  split at h <;> split at h <;> omega

theorem shift_of_lt {m l : ListenerId} (hlt : l < m) : shift m l = l := if_pos hlt

theorem shift_of_le {m l : ListenerId} (hle : m ≤ l) : shift m l = l + 1 :=
  if_neg (Nat.not_lt_of_le hle)

def Registration.shift (m : ListenerId) : Registration → Registration
  | .listener l => .listener (Observable.shift m l)
  | r => r

theorem Registration.shift_injective (m : ListenerId) :
    Function.Injective (Registration.shift m) := by
  intro r r' h
  cases r with
  | listener l =>
    cases r' with
    | listener l' => rw [Observable.shift_injective m (Registration.listener.inj h)]
    | _ => cases h
  | bound i =>
    cases r' with
    | bound => exact h
    | _ => cases h
  | derived i =>
    cases r' with
    | derived => exact h
    | _ => cases h

theorem Registration.shift_ne (m : ListenerId) (r : Registration) : r.shift m ≠ .listener m := by
  cases r with
  | listener l => exact fun h => Observable.shift_ne m l (Registration.listener.inj h)
  | _ => exact fun h => by cases h

/-! ## Lists -/

/-- The second list is the first one with its listeners renumbered, in which the listener `m` occurs
as well. -/
def Joined (m : ListenerId) (l l' : List Registration) : Prop :=
  l'.filter (· != .listener m) = l.map (Registration.shift m)

namespace Joined

variable {m : ListenerId} {l l' : List Registration}

theorem nil : Joined m [] [] := rfl

theorem append (h : Joined m l l') (r : Registration) :
    Joined m (l ++ [r]) (l' ++ [r.shift m]) := by
  have hne : (r.shift m != .listener m) = true := bne_iff_ne.2 (r.shift_ne m)
  unfold Joined at h ⊢
  rw [List.filter_append, h, List.map_append]
  simp [hne]

/-- The listener itself comes in. -/
theorem join (h : Joined m l l') : Joined m l (l' ++ [.listener m]) := by
  unfold Joined at h ⊢
  rw [List.filter_append, h]
  simp

theorem erase (h : Joined m l l') (r : Registration) :
    Joined m (l.erase r) (l'.erase (r.shift m)) := by
  unfold Joined at h ⊢
  rw [← List.erase_filter, h, List.map_erase (Registration.shift_injective m)]

theorem contains (h : Joined m l l') (r : Registration) :
    l'.contains (r.shift m) = l.contains r := by
  have hne : (r.shift m != .listener m) = true := bne_iff_ne.2 (r.shift_ne m)
  rw [Bool.eq_iff_iff, List.contains_iff_mem, List.contains_iff_mem]
  calc r.shift m ∈ l' ↔ r.shift m ∈ l'.filter (· != .listener m) := by
        rw [List.mem_filter]
        exact ⟨fun hmem => ⟨hmem, hne⟩, fun hmem => hmem.1⟩
    _ ↔ r.shift m ∈ l.map (Registration.shift m) := by rw [h]
    _ ↔ r ∈ l := List.mem_map_of_injective (Registration.shift_injective m)

theorem length (h : Joined m l l') : l'.length = l.length + l'.count (.listener m) := by
  have hsplit := List.length_eq_countP_add_countP (· != Registration.listener m) (l := l')
  have hrest : l'.countP (· != .listener m) = l.length := by
    rw [List.countP_eq_length_filter, h, List.length_map]
  rw [hsplit, hrest, List.count]
  congr 1
  apply List.countP_congr
  intro r _
  simp

/-- The second list begins with the listener, or both begin alike. -/
theorem cases (h : Joined m l l') :
    (l = [] ∧ l' = []) ∨ (∃ tail', l' = .listener m :: tail' ∧ Joined m l tail') ∨
      ∃ r tail tail', l = r :: tail ∧ l' = r.shift m :: tail' ∧ Joined m tail tail' := by
  cases l' with
  | nil => exact .inl ⟨List.map_eq_nil_iff.1 h.symm, rfl⟩
  | cons s tail' =>
    right
    unfold Joined at h
    rw [List.filter_cons] at h
    by_cases hs : s = .listener m
    · rw [if_neg (by simpa using hs)] at h
      exact .inl ⟨tail', by rw [hs], h⟩
    · rw [if_pos (by simpa using hs)] at h
      cases l with
      | nil => cases h
      | cons r tail =>
        obtain ⟨hhead, htail⟩ := List.cons.inj h
        exact .inr ⟨r, tail, tail', rfl, by rw [hhead], htail⟩

/-- A list in which all listeners are older than `m`. -/
theorem of_lt (hlt : ∀ a, .listener a ∈ l → a < m) : Joined m l l := by
  have hsame : l.map (Registration.shift m) = l.map id := by
    apply List.map_congr_left
    intro r hr
    cases r with
    | listener a => exact congrArg _ (shift_of_lt (hlt a hr))
    | _ => rfl
  unfold Joined
  rw [hsame, List.map_id, List.filter_eq_self]
  intro r hr
  rw [bne_iff_ne]
  rintro rfl
  exact Nat.lt_irrefl m (hlt m hr)

end Joined

/-! ## Handles -/

namespace Handle

def shift (m : ListenerId) : Handle → Handle
  | .listener l => .listener (Observable.shift m l)
  | .receiver l => .receiver (Observable.shift m l)
  | h => h

/-- What a handle says of objects does not depend on the numbers of listeners. -/
@[simp] theorem held?_shift (m : ListenerId) (h : Handle) : (h.shift m).held? = h.held? := by
  cases h <;> rfl

@[simp] theorem property?_shift (m : ListenerId) (h : Handle) :
    (h.shift m).property? = h.property? := by
  cases h <;> rfl

@[simp] theorem readable?_shift (m : ListenerId) (h : Handle) :
    (h.shift m).readable? = h.readable? := by
  cases h <;> rfl

@[simp] theorem observable?_shift (m : ListenerId) (h : Handle) :
    (h.shift m).observable? = h.observable? := by
  cases h <;> rfl

@[simp] theorem listened?_shift (m : ListenerId) (h : Handle) :
    (h.shift m).listened? = h.listened? :=
  held?_shift m h

@[simp] theorem set?_shift (m : ListenerId) (h : Handle) : (h.shift m).set? = h.set? := by
  cases h <;> rfl

@[simp] theorem numbered?_shift (m : ListenerId) (h : Handle) :
    (h.shift m).numbered? = h.numbered? := by
  cases h <;> rfl

theorem listener?_shift (m : ListenerId) (h : Handle) :
    (h.shift m).listener? = h.listener?.map (Observable.shift m) := by
  cases h <;> rfl

/-- A handle that is older than the listener `m`. -/
theorem shift_of_supports {w : World V} {h : Handle} (hs : w.Supports h) :
    h.shift w.listeners.size = h := by
  cases h with
  | listener l => exact congrArg _ (shift_of_lt hs)
  | receiver l => exact congrArg _ (shift_of_lt hs)
  | _ => rfl

theorem receiver?_shift (m : ListenerId) (h : Handle) :
    (h.shift m).receiver? = h.receiver?.map (Observable.shift m) := by
  cases h <;> rfl

end Handle

/-! ## Worlds -/

/-- An object with the number `i`, and the same object where the listener `m` watches `o`. -/
structure Object.Watched (o : Id) (m : ListenerId) (i : Id) (x x' : Object V) : Prop where
  body : x'.body = x.body
  joined : Joined m x.registrations x'.registrations
  count : x'.registrations.count (.listener m) = if i = o then 1 else 0

namespace World

/-- In the second world, the listener `m` watches `o`. The names in `hidden` are known only there.
-/
structure Watched (o : Id) (m : ListenerId) (hidden : List String) (w w' : World V) : Prop where
  lt : o < w.objects.size
  size : w'.objects.size = w.objects.size
  objects : ∀ i, Option.Rel (Object.Watched o m i) (w.object? i) (w'.object? i)
  le : m ≤ w.listeners.size
  sizeListeners : w'.listeners.size = w.listeners.size + 1
  listeners : ∀ l, w'.listeners.get? (shift m l) = w.listeners.get? l
  channel : ∃ sent taken, w'.listeners.get? m = some (.channel sent taken)
  names : ∀ n, n ∉ hidden → w'.names.find? n = (w.names.find? n).map (Handle.shift m)
  hidden : ∀ n, n ∈ hidden →
    w.names.find? n = none ∧ ∀ h, w'.names.find? n = some h → h.held? = none

namespace Watched

variable {o : Id} {m : ListenerId} {hidden : List String} {w w' : World V}

/-! ### What the worlds agree on -/

theorem object?_cases (hw : w.Watched o m hidden w') (i : Id) :
    (w.object? i = none ∧ w'.object? i = none) ∨
      ∃ x x', w.object? i = some x ∧ w'.object? i = some x' ∧ Object.Watched o m i x x' := by
  have h := hw.objects i
  generalize w.object? i = x at h
  generalize w'.object? i = x' at h
  cases h with
  | none => exact .inl ⟨rfl, rfl⟩
  | some hx => exact .inr ⟨_, _, rfl, rfl, hx⟩

theorem body? (hw : w.Watched o m hidden w') (i : Id) : w'.body? i = w.body? i := by
  unfold World.body?
  obtain ⟨h, h'⟩ | ⟨x, x', h, h', hx⟩ := hw.object?_cases i
  · rw [h, h']
  · rw [h, h']
    exact congrArg some hx.body

theorem alive (hw : w.Watched o m hidden w') (i : Id) : w'.alive i = w.alive i := by
  rw [Bool.eq_iff_iff, alive_iff_body?, alive_iff_body?, hw.body?]

theorem property? (hw : w.Watched o m hidden w') (i : Id) : w'.property? i = w.property? i := by
  rw [property?_eq_body?, property?_eq_body?, hw.body?]

theorem binding? (hw : w.Watched o m hidden w') (i : Id) : w'.binding? i = w.binding? i := by
  rw [binding?_eq_body?, binding?_eq_body?, hw.body?]

theorem value? (hw : w.Watched o m hidden w') (i : Id) : w'.value? i = w.value? i := by
  rw [value?_eq_body?, value?_eq_body?, hw.body?]

theorem relation? (hw : w.Watched o m hidden w') (i : Id) : w'.relation? i = w.relation? i := by
  rw [relation?_eq_body?, relation?_eq_body?, hw.body?]

theorem isBound (hw : w.Watched o m hidden w') (i : Id) : w'.isBound i = w.isBound i := by
  unfold World.isBound
  rw [hw.property?]

theorem joined (hw : w.Watched o m hidden w') (i : Id) :
    Joined m (w.registrations i) (w'.registrations i) := by
  unfold registrations
  obtain ⟨h, h'⟩ | ⟨x, x', h, h', hx⟩ := hw.object?_cases i
  · rw [h, h']
    exact .nil
  · rw [h, h']
    exact hx.joined

/-- The list of the watched object is longer by one, as long as the object lives. -/
theorem length (hw : w.Watched o m hidden w') {i : Id} (halive : w.alive i = true) :
    (w'.registrations i).length = (w.registrations i).length + if i = o then 1 else 0 := by
  rw [(hw.joined i).length]
  obtain ⟨h, h'⟩ | ⟨x, x', h, h', hx⟩ := hw.object?_cases i
  · simp [World.alive, h] at halive
  · simp only [registrations, h']
    rw [hx.count]

theorem find? {α : Type} (hw : w.Watched o m hidden w') {n : String} (hn : n ∉ hidden)
    {select : Handle → Option α} {f : α → α}
    (hselect : ∀ h : Handle, select (h.shift m) = (select h).map f) :
    w'.find? n select = (w.find? n select).map f := by
  unfold World.find?
  rw [hw.names n hn]
  cases w.names.find? n with
  | none => rfl
  | some h => exact hselect h

/-- A look-up that is about objects finds the same. -/
theorem find?_same {α : Type} (hw : w.Watched o m hidden w') {n : String} (hn : n ∉ hidden)
    {select : Handle → Option α} (hselect : ∀ h : Handle, select (h.shift m) = select h) :
    w'.find? n select = w.find? n select := by
  rw [hw.find? hn (f := id) fun h => by rw [hselect, Option.map_id, id], Option.map_id, id]

theorem holds (hw : w.Watched o m hidden w') (i : Id) : w'.names.holds i = w.names.holds i := by
  rw [Bool.eq_iff_iff, Registry.holds_iff, Registry.holds_iff]
  constructor
  · rintro ⟨n, h, hfind, hi⟩
    by_cases hn : n ∈ hidden
    · rw [(hw.hidden n hn).2 h hfind] at hi
      cases hi
    · rw [hw.names n hn] at hfind
      obtain ⟨g, hg, rfl⟩ := Option.map_eq_some_iff.1 hfind
      exact ⟨n, g, hg, (Handle.held?_shift m g).symm.trans hi⟩
  · rintro ⟨n, h, hfind, hi⟩
    have hn : n ∉ hidden := by
      intro hn
      rw [(hw.hidden n hn).1] at hfind
      cases hfind
    refine ⟨n, h.shift m, ?_, (Handle.held?_shift m h).trans hi⟩
    rw [hw.names n hn, hfind]
    rfl

/-! ### Writes -/

/-- One object changes in the same way in both worlds. -/
theorem alter (hw : w.Watched o m hidden w') {i : Id} {f f' : Object V → Object V}
    (hf : ∀ x x', Object.Watched o m i x x' → Object.Watched o m i (f x) (f' x')) :
    (w.alter i f).Watched o m hidden (w'.alter i f') :=
  { hw with
    lt := by
      rw [size_objects_alter]
      exact hw.lt
    size := by rw [size_objects_alter, size_objects_alter, hw.size]
    objects := by
      intro j
      rw [object?_alter, object?_alter]
      obtain ⟨h, h'⟩ | ⟨x, x', h, h', hx⟩ := hw.object?_cases j
      · rw [h, h']
        split <;> exact .none
      · rw [h, h']
        split
        · next hij =>
          subst hij
          exact .some (hf x x' hx)
        · exact .some hx }

theorem store (hw : w.Watched o m hidden w') (i : Id) (v : V) :
    (w.store i v).Watched o m hidden (w'.store i v) := by
  apply hw.alter
  intro x x' hx
  exact ⟨congrArg (Body.store v) hx.body, hx.joined, hx.count⟩

theorem follow (hw : w.Watched o m hidden w') (i : Id) (source : Option Id) :
    (w.follow i source).Watched o m hidden (w'.follow i source) := by
  apply hw.alter
  intro x x' hx
  exact ⟨congrArg (Body.follow source) hx.body, hx.joined, hx.count⟩

theorem register (hw : w.Watched o m hidden w') (i : Id) (r : Registration) :
    (w.register i r).Watched o m hidden (w'.register i (r.shift m)) := by
  apply hw.alter
  intro x x' hx
  have hnone : [r.shift m].count (.listener m) = 0 :=
    List.count_eq_zero.2 (by simpa using (r.shift_ne m).symm)
  refine ⟨hx.body, hx.joined.append r, ?_⟩
  rw [List.count_append, hnone]
  exact hx.count

theorem unregister (hw : w.Watched o m hidden w') (i : Id) (r : Registration) :
    (w.unregister i r).Watched o m hidden (w'.unregister i (r.shift m)) := by
  apply hw.alter
  intro x x' hx
  refine ⟨hx.body, hx.joined.erase r, ?_⟩
  rw [List.count_erase_of_ne (r.shift_ne m).symm, hx.count]

theorem create (hw : w.Watched o m hidden w') (b : Body V) :
    (w.create b).Watched o m hidden (w'.create b) :=
  { hw with
    lt := by
      rw [size_objects_create]
      exact Nat.lt_succ_of_lt hw.lt
    size := by rw [size_objects_create, size_objects_create, hw.size]
    objects := by
      intro j
      rw [object?_create, object?_create, hw.size]
      split
      · next hj =>
        refine .some ⟨rfl, .nil, ?_⟩
        rw [if_neg (by rw [hj]; exact Nat.ne_of_gt hw.lt)]
        rfl
      · exact hw.objects j }

theorem createListener (hw : w.Watched o m hidden w') (x : Listener V) :
    (w.createListener x).Watched o m hidden (w'.createListener x) :=
  have hsize : w'.listeners.size = shift m w.listeners.size := by
    rw [hw.sizeListeners, shift_of_le hw.le]
  { hw with
    le := by
      rw [World.createListener, Table.size_push]
      exact Nat.le_succ_of_le hw.le
    sizeListeners := by
      rw [World.createListener, World.createListener, Table.size_push, Table.size_push,
        hw.sizeListeners]
    listeners := by
      intro l
      rw [World.createListener, World.createListener, Table.get?_push, Table.get?_push, hsize]
      simp only [(shift_injective m).eq_iff, hw.listeners]
    channel := by
      obtain ⟨sent, taken, h⟩ := hw.channel
      refine ⟨sent, taken, ?_⟩
      rw [World.createListener, Table.get?_push, hsize, if_neg (shift_ne m _).symm]
      exact h }

theorem alterListener (hw : w.Watched o m hidden w') (l : ListenerId)
    (f : Listener V → Listener V) :
    (w.alterListener l f).Watched o m hidden (w'.alterListener (shift m l) f) :=
  { hw with
    le := by
      rw [World.alterListener, Table.size_modify]
      exact hw.le
    sizeListeners := by
      rw [World.alterListener, World.alterListener, Table.size_modify, Table.size_modify,
        hw.sizeListeners]
    listeners := by
      intro k
      rw [World.alterListener, World.alterListener, Table.get?_modify, Table.get?_modify]
      simp only [(shift_injective m).eq_iff, hw.listeners]
    channel := by
      obtain ⟨sent, taken, h⟩ := hw.channel
      refine ⟨sent, taken, ?_⟩
      rw [World.alterListener, Table.get?_modify_of_ne _ _ (shift_ne m l)]
      exact h }

/-- The listener that watches is sent a change. -/
theorem send (hw : w.Watched o m hidden w') (c : Change V) :
    w.Watched o m hidden (w'.alterListener m (Listener.send c)) :=
  { hw with
    sizeListeners := by
      rw [World.alterListener, Table.size_modify]
      exact hw.sizeListeners
    listeners := by
      intro l
      rw [World.alterListener, Table.get?_modify_of_ne _ _ (shift_ne m l).symm]
      exact hw.listeners l
    channel := by
      obtain ⟨sent, taken, h⟩ := hw.channel
      refine ⟨sent ++ [c], taken, ?_⟩
      rw [World.alterListener, Table.get?_modify_self, h]
      rfl }

/-! ### Lifetimes -/

theorem bury (hw : w.Watched o m hidden w') (i : Id) :
    (w.bury i).Watched o m hidden (w'.bury i) where
  lt := by
    rw [size_objects_bury]
    exact hw.lt
  size := by rw [size_objects_bury, size_objects_bury, hw.size]
  objects := by
    intro j
    rw [object?_bury, object?_bury, hw.relation?]
    split
    · exact .none
    · cases hrelation : w.relation? i with
      | none => exact hw.objects j
      | some x =>
        obtain ⟨k, r⟩ := x
        have hr : r.shift m = r := by
          obtain ht := target?_of_relation? hrelation
          cases r with
          | listener => cases ht
          | _ => rfl
        simp only
        rw [← object?_alter, ← object?_alter]
        have h := (hw.unregister k r).objects j
        rw [hr] at h
        exact h
  le := by
    rw [listeners_bury]
    exact hw.le
  sizeListeners := by rw [listeners_bury, listeners_bury, hw.sizeListeners]
  listeners := by
    intro l
    rw [listeners_bury, listeners_bury, hw.listeners]
  channel := by
    rw [listeners_bury]
    exact hw.channel
  names := by
    rw [names_bury, names_bury]
    exact hw.names
  hidden := by
    rw [names_bury, names_bury]
    exact hw.hidden

theorem release (hw : w.Watched o m hidden w') (held : List Id) (i : Id) :
    (w.release held i).Watched o m hidden (w'.release held i) := by
  unfold World.release
  rw [hw.holds]
  split
  · exact hw
  · exact hw.bury i

theorem discard (hw : w.Watched o m hidden w') (held : List Id) (h : Option Handle) :
    (w.discard held h).Watched o m hidden (w'.discard held (h.map (Handle.shift m))) := by
  unfold World.discard
  have hheld : (h.map (Handle.shift m)).bind Handle.held? = h.bind Handle.held? := by
    cases h with
    | none => rfl
    | some h => exact Handle.held?_shift m h
  rw [hheld]
  cases h.bind Handle.held? with
  | none => exact hw
  | some i => exact hw.release held i

theorem assign (hw : w.Watched o m hidden w') (held : List Id) {n : String} (hn : n ∉ hidden)
    (h : Handle) :
    (w.assign held n h).Watched o m hidden (w'.assign held n (h.shift m)) := by
  unfold World.assign
  rw [hw.names n hn]
  apply discard
  exact { hw with
    names := by
      intro k hk
      rw [Registry.find?_insert, Registry.find?_insert, hw.names k hk]
      split <;> rfl
    hidden := by
      intro k hk
      have hne : k ≠ n := fun heq => hn (heq ▸ hk)
      rw [Registry.find?_insert, Registry.find?_insert, if_neg hne, if_neg hne]
      exact hw.hidden k hk }

theorem forget (hw : w.Watched o m hidden w') (held : List Id) {n : String} (hn : n ∉ hidden) :
    (w.forget held n).Watched o m hidden (w'.forget held n) := by
  unfold World.forget
  rw [hw.names n hn]
  apply discard
  exact { hw with
    names := by
      intro k hk
      rw [Registry.find?_erase, Registry.find?_erase, hw.names k hk]
      split <;> rfl
    hidden := by
      intro k hk
      have hne : k ≠ n := fun heq => hn (heq ▸ hk)
      rw [Registry.find?_erase, Registry.find?_erase, if_neg hne, if_neg hne]
      exact hw.hidden k hk }

/-- A name that only the second world knows goes out of use there. -/
theorem forget_hidden (hw : w.Watched o m hidden w') (held : List Id) {n : String}
    (hn : n ∈ hidden) : w.Watched o m hidden (w'.forget held n) := by
  have hnone : (w'.names.find? n).bind Handle.held? = none := by
    cases h : w'.names.find? n with
    | none => rfl
    | some g => exact (hw.hidden n hn).2 g h
  unfold World.forget World.discard
  simp only [hnone]
  exact { hw with
    names := by
      intro k hk
      have hne : k ≠ n := fun heq => hk (heq ▸ hn)
      rw [Registry.find?_erase, if_neg hne]
      exact hw.names k hk
    hidden := by
      intro k hk
      refine ⟨(hw.hidden k hk).1, fun h hh => ?_⟩
      rw [Registry.find?_erase] at hh
      split at hh
      · cases hh
      · exact (hw.hidden k hk).2 h hh }

/-! ### The observer comes -/

/-- The observer is created, under two names that were not in use, and registered. -/
theorem insert {name receiver : String} (halive : w.alive o = true)
    (hname : w.names.find? name = none) (hreceiver : w.names.find? receiver = none)
    (hsupports : ∀ n h, w.names.find? n = some h → w.Supports h)
    (hregistered : ∀ i a, .listener a ∈ w.registrations i → a < w.listeners.size) :
    w.Watched o w.listeners.size [name, receiver]
      ({ w with
          listeners := w.listeners.push (.channel [] 0)
          names := (w.names.insert name (.listener w.listeners.size)).insert receiver
            (.receiver w.listeners.size) }.register o (.listener w.listeners.size)) where
  lt := lt_size_of_alive halive
  size := size_objects_alter ..
  objects := by
    intro i
    show Option.Rel _ (w.object? i) ((w.register o (.listener w.listeners.size)).object? i)
    rw [World.register, object?_alter]
    cases hx : w.object? i with
    | none => split <;> exact .none
    | some x =>
      have holder : ∀ a, .listener a ∈ x.registrations → a < w.listeners.size := fun a ha => by
        apply hregistered i a
        rw [registrations, hx]
        exact ha
      have hjoined : Joined w.listeners.size x.registrations x.registrations := .of_lt holder
      have hnone : x.registrations.count (.listener w.listeners.size) = 0 :=
        List.count_eq_zero.2 fun hmem => Nat.lt_irrefl _ (holder _ hmem)
      split
      · next hi =>
        refine .some ⟨rfl, hjoined.join, ?_⟩
        rw [List.count_append, hnone, if_pos hi.symm]
        simp
      · next hi =>
        refine .some ⟨rfl, hjoined, ?_⟩
        rw [hnone, if_neg (Ne.symm hi)]
  le := Nat.le_refl _
  sizeListeners := Table.size_push ..
  listeners := by
    intro l
    refine (Table.get?_push ..).trans ?_
    rw [if_neg (shift_ne _ l)]
    rcases Nat.lt_or_ge l w.listeners.size with hlt | hle
    · rw [shift_of_lt hlt]
    · rw [shift_of_le hle, Table.get?_eq_none_of_size_le hle,
        Table.get?_eq_none_of_size_le (Nat.le_succ_of_le hle)]
  channel := ⟨[], 0, Table.get?_push_self ..⟩
  names := by
    intro n hn
    simp only [List.mem_cons, List.not_mem_nil, or_false, not_or] at hn
    refine (Registry.find?_insert ..).trans ?_
    rw [if_neg hn.2, Registry.find?_insert, if_neg hn.1]
    cases hfind : w.names.find? n with
    | none => rfl
    | some h => exact congrArg some (Handle.shift_of_supports (hsupports n h hfind)).symm
  hidden := by
    intro n hn
    constructor
    · rcases List.mem_pair.1 hn with rfl | rfl
      · exact hname
      · exact hreceiver
    · intro h hfind
      have hinsert := (Registry.find?_insert ..).symm.trans hfind
      split at hinsert
      · cases hinsert
        rfl
      · next hne =>
        obtain rfl := (List.mem_pair.1 hn).resolve_right hne
        rw [Registry.find?_insert, if_pos rfl] at hinsert
        cases hinsert
        rfl

end Watched

end World

end Observable
