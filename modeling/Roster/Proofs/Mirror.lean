import Roster.Proofs.Accounts
import Roster.Proofs.Announcements
import Roster.Proofs.Broadcast
/-! # A mirror of the accounts

Whoever copies the rows when it subscribes, and from then on overwrites in each row what the
envelopes about it carry, has what the store has. The envelopes that are still on their way, to the
channel or from it, are all that stands between the two. -/
namespace Roster

/-- The attributes that an envelope carries. -/
def Envelope.carried (e : Envelope) : Profile where
  firstName := e.firstName
  lastName := e.lastName
  nickname := e.nickname
  email := e.email
  country := e.country

namespace User

/-- Overwrites in an account what an envelope about it carries. -/
def heed (u : User) (e : Envelope) : User :=
  if u.id = e.id then { u with profile := u.profile.overwrite e.carried } else u

@[simp] theorem id_heed (u : User) (e : Envelope) : (u.heed e).id = u.id := by
  unfold heed
  split <;> rfl

@[simp] theorem id_foldl_heed (u : User) (es : List Envelope) : (es.foldl heed u).id = u.id := by
  induction es generalizing u with
  | nil => rfl
  | cons e es ih => exact (ih _).trans (u.id_heed e)

theorem get_heed (u : User) (e : Envelope) (a : Attribute) :
    (u.heed e).profile.get a =
      if u.id = e.id ∧ e.carried.get a ≠ "" then e.carried.get a else u.profile.get a := by
  by_cases hid : u.id = e.id
  · by_cases ha : e.carried.get a = "" <;> simp [heed, hid, ha, Profile.get_overwrite]
  · simp [heed, hid]

theorem foldl_heed_of_ne {u : User} {es : List Envelope} (h : ∀ e ∈ es, u.id ≠ e.id) :
    es.foldl heed u = u := by
  induction es with
  | nil => rfl
  | cons e es ih =>
    obtain ⟨he, hes⟩ := List.forall_mem_cons.mp h
    rw [List.foldl_cons, heed, if_neg he, ih hes]

/-- Envelopes leave an attribute of an account alone, or give it a value whatever it was. -/
theorem get_foldl_heed (id : String) (a : Attribute) (es : List Envelope) :
    (∀ u : User, u.id = id → (es.foldl heed u).profile.get a = u.profile.get a) ∨
      ∃ x, ∀ u : User, u.id = id → (es.foldl heed u).profile.get a = x := by
  induction es with
  | nil => exact .inl fun _ _ => rfl
  | cons e es ih =>
    rcases ih with hkeep | ⟨x, hset⟩
    · by_cases h : id = e.id ∧ e.carried.get a ≠ ""
      · right
        refine ⟨e.carried.get a, fun u hu => ?_⟩
        rw [List.foldl_cons, hkeep _ ((u.id_heed e).trans hu), get_heed, hu, if_pos h]
      · left
        intro u hu
        rw [List.foldl_cons, hkeep _ ((u.id_heed e).trans hu), get_heed, hu, if_neg h]
    · right
      exact ⟨x, fun u hu => hset _ ((u.id_heed e).trans hu)⟩

end User

/-- A copy of some rows after some envelopes. -/
def mirrored (rows : List User) (es : List Envelope) : List User :=
  rows.map fun u => es.foldl User.heed u

/-- What the mirror has of an account that still stands in the store is what the store has, but for
the password. -/
def Coherent (mirror rows : List User) : Prop :=
  ∀ u ∈ mirror, ∀ v ∈ rows, u.id = v.id → ∀ a, a ≠ .password → u.profile.get a = v.profile.get a

theorem mirrored_append (rows : List User) (es more : List Envelope) :
    mirrored rows (es ++ more) = mirrored (mirrored rows es) more := by
  rw [mirrored, mirrored, mirrored, List.map_map]
  apply List.map_congr_left
  intro u _
  exact List.foldl_append

theorem User.id_absorb (u : User) (c : Answered) : (u.absorb c).id = u.id := by
  unfold absorb
  split <;> rfl

section

variable {a : Attribute} (ha : a ≠ .password)
include ha

theorem get_carried_envelope (r : UpdateUser) : r.envelope.carried.get a = r.profile.get a := by
  cases a with
  | password => exact absurd rfl ha
  | _ => rfl

/-- The announcement of a change does to a copy what the change does to the account. -/
theorem get_heed_announces (c : Answered) {u v : User} (hid : u.id = v.id)
    (h : u.profile.get a = v.profile.get a) :
    (c.announces.foldl User.heed u).profile.get a = (v.absorb c).profile.get a := by
  obtain ⟨draw, request, result⟩ := c
  cases request with
  | update r =>
    rcases result with _ | _ | response
    · exact h
    · exact h
    · have hchanged : Answered.changed? ⟨draw, .update r, some (.ok response)⟩ v.id =
          if r.id = v.id then some (r.profile, draw.now) else none := rfl
      have hcarried := get_carried_envelope ha r
      rw [User.absorb, hchanged]
      show (u.heed r.envelope).profile.get a = _
      rw [User.get_heed, hid, hcarried]
      by_cases hr : r.id = v.id
      · rw [if_pos hr]
        by_cases hempty : r.profile.get a = ""
        · simp [User.apply, Profile.get_overwrite, hempty, h]
        · simp [User.apply, Profile.get_overwrite, hempty, UpdateUser.envelope, hr]
      · have hne : ¬ (v.id = r.envelope.id ∧ r.profile.get a ≠ "") := fun hv => hr hv.1.symm
        rw [if_neg hr, if_neg hne, h]
  | create _ | list _ | delete _ => exact h

/-- Envelopes that leave an account as it is do so after a change, with the announcement of the change
behind them. -/
theorem get_foldl_heed_absorb (c : Answered) {v : User} {es : List Envelope}
    (h : (es.foldl User.heed v).profile.get a = v.profile.get a) :
    ((es ++ c.announces).foldl User.heed (v.absorb c)).profile.get a =
      (v.absorb c).profile.get a := by
  have hid : (v.absorb c).id = v.id := v.id_absorb c
  have hid' : (es.foldl User.heed (v.absorb c)).id = v.id := (User.id_foldl_heed _ _).trans hid
  have habsorb := get_heed_announces ha c rfl (rfl : v.profile.get a = v.profile.get a)
  rw [List.foldl_append]
  -- The announcement gives the attribute its value again, or leaves it as all before has left it.
  rcases User.get_foldl_heed v.id a c.announces with hkeep | ⟨x, hset⟩
  · rw [hkeep v rfl] at habsorb
    rw [hkeep _ hid']
    rcases User.get_foldl_heed v.id a es with hkeep' | ⟨x, hset'⟩
    · exact hkeep' _ hid
    · rw [hset' _ hid, ← hset' v rfl, h, habsorb]
  · rw [hset _ hid', ← hset v rfl, habsorb]

end

/-- A row after a call was there before, or was made by it. -/
theorem Answered.mem_replay {c : Answered} {rows : List User} {v : User} (h : v ∈ c.replay rows) :
    (∃ u ∈ rows, v = u.absorb c) ∨ c.made? = some v := by
  rcases List.mem_append.mp h with h | h
  · obtain ⟨u, hu, rfl⟩ := List.mem_map.mp h
    exact .inl ⟨u, (List.mem_filter.mp hu).1, rfl⟩
  · exact .inr (Option.mem_toList.mp h)

theorem Coherent.replay {copy rows : List User} {es : List Envelope}
    (h : Coherent (mirrored copy es) rows) {c : Answered}
    (hnew : ∀ made, c.made? = some made → ∀ u ∈ copy, u.id ≠ made.id) :
    Coherent (mirrored copy (es ++ c.announces)) (c.replay rows) := by
  intro u' hu' v' hv' hid a ha
  obtain ⟨u, hu, rfl⟩ := List.mem_map.mp hu'
  rw [User.id_foldl_heed] at hid
  rcases Answered.mem_replay hv' with ⟨v, hv, rfl⟩ | hmade
  · rw [User.id_absorb] at hid
    have hsame : (es.foldl User.heed u).id = v.id := (u.id_foldl_heed es).trans hid
    rw [List.foldl_append]
    exact get_heed_announces ha c hsame (h _ (List.mem_map_of_mem hu) v hv hsame a ha)
  · exact absurd hid (hnew v' hmade u hu)

theorem madeIds_append (h : List Answered) (c : Answered) :
    madeIds (h ++ [c]) = madeIds h ++ c.made?.toList.map (·.id) := by
  rw [madeIds, madeIds, List.filterMap_append, List.map_append, List.filterMap_cons]
  cases c.made? <;> rfl

theorem id_mem_madeIds {h : List Answered} {u : User} (hu : u ∈ accounts h) : u.id ∈ madeIds h :=
  (map_id_accounts_sublist h).subset (List.mem_map_of_mem hu)

namespace Desk

/-- The rows are the accounts that the calls tell of. What is still to be announced is known, and
tells of no row anything but what stands there. -/
structure Settled (d : Desk) : Prop where
  core : d.server.core = .users
  rows : d.server.store.rows = accounts d.calls
  known : ∀ n ∈ d.pending, n.envelope.id ∈ madeIds d.calls
  calm : ∀ v ∈ d.server.store.rows, ∀ a, a ≠ .password →
    ((d.pending.map (·.envelope)).foldl User.heed v).profile.get a = v.profile.get a

/-- The first announcement that is pending is made first. -/
def Move.inOrder : Move → Bool
  | .announce i => i == 0
  | _ => true

theorem opened_settled {s : Server} (hs : s.core = .users) (hrows : s.store.rows = []) :
    (opened s).Settled where
  core := hs
  rows := hrows
  known _ hn := absurd hn List.not_mem_nil
  calm _ _ _ _ := rfl

theorem Settled.nodup {d : Desk} (hd : d.Settled) (hfresh : (madeIds d.calls).Nodup) :
    (d.server.store.rows.map (·.id)).Nodup := by
  rw [hd.rows]
  exact hfresh.sublist (map_id_accounts_sublist d.calls)

theorem madeIds_sublist_after (d : Desk) (m : Move) :
    List.Sublist (madeIds d.calls) (madeIds (d.after m).calls) := by
  cases m with
  | act a =>
    cases a with
    | call c =>
      rw [after, madeIds_append]
      exact List.sublist_append_left _ _
    | _ => exact .refl _
  | announce i =>
    simp only [after]
    split <;> exact .refl _
  | deliver => exact .refl _

theorem madeIds_sublist_course (d : Desk) (moves : List Move) :
    List.Sublist (madeIds d.calls) (madeIds (d.course moves).calls) := by
  induction moves generalizing d with
  | nil => exact .refl _
  | cons m moves ih => exact (d.madeIds_sublist_after m).trans (ih (d.after m))

/-- The rows after a call, and what is then to be announced. -/
theorem Settled.call {d : Desk} (hd : d.Settled) (hfresh : (madeIds d.calls).Nodup) (c : ClientCall) :
    let answered : Answered := ⟨c.draw, c.request, (d.server.call c).value⟩
    let e := d.after (.act (.call c))
    e.calls = d.calls ++ [answered] ∧
      e.server.store.rows = answered.replay d.server.store.rows ∧
      e.pending.map (·.envelope) = d.pending.map (·.envelope) ++ answered.announces := by
  have hsettles := Server.call_settles hd.core c
  refine ⟨rfl, hsettles.rows (hd.nodup hfresh), ?_⟩
  rw [← hsettles.announced_eq]
  simp [after, Function.comp_def]

/-- Only what was changed is announced, and only what was made is changed. -/
theorem Settled.id_of_mem_announces {d : Desk} (hd : d.Settled) (c : ClientCall) {e : Envelope}
    (he : e ∈ Answered.announces ⟨c.draw, c.request, (d.server.call c).value⟩) :
    e.id ∈ madeIds d.calls := by
  have hsettles := Server.call_settles hd.core c
  obtain ⟨r, response, heq, rfl⟩ := Answered.eq_of_mem_announces he
  obtain ⟨-, hrequest, hvalue⟩ := Answered.mk.inj heq
  rw [hrequest, hvalue] at hsettles
  obtain ⟨u, hu, hid⟩ := exists_of_changeRow hsettles.changeRow_eq
  rw [hd.rows] at hu
  have hmade := id_mem_madeIds hu
  rwa [hid] at hmade

theorem Settled.after_call {d : Desk} (hd : d.Settled) (c : ClientCall)
    (hfresh : (madeIds (d.after (.act (.call c))).calls).Nodup) :
    (d.after (.act (.call c))).Settled := by
  obtain ⟨hcalls, hrows, hpending⟩ := hd.call (hfresh.sublist (d.madeIds_sublist_after _)) c
  have hannounced : ∀ e ∈ Answered.announces ⟨c.draw, c.request, (d.server.call c).value⟩,
      e.id ∈ madeIds d.calls := fun e he => hd.id_of_mem_announces c he
  generalize (⟨c.draw, c.request, (d.server.call c).value⟩ : Answered) = answered
    at hcalls hrows hpending hannounced
  rw [hcalls, madeIds_append] at hfresh
  refine ⟨hd.core, ?_, ?_, ?_⟩
  · rw [hrows, hcalls, accounts_append, hd.rows]
  · intro n hn
    have hn : n.envelope ∈ d.pending.map (·.envelope) ++ answered.announces :=
      hpending ▸ List.mem_map_of_mem hn
    rw [hcalls, madeIds_append]
    apply List.mem_append_left
    rcases List.mem_append.mp hn with hn | hn
    · obtain ⟨n', hn', heq⟩ := List.mem_map.mp hn
      exact heq ▸ hd.known n' hn'
    · exact hannounced _ hn
  · intro v' hv' a ha
    rw [hrows] at hv'
    rw [hpending]
    rcases Answered.mem_replay hv' with ⟨v, hv, rfl⟩ | hmade
    · exact get_foldl_heed_absorb ha answered (hd.calm v hv a ha)
    · -- Nothing that is announced is about an account that was made just now.
      have hnew : v'.id ∉ madeIds d.calls := by
        rw [hmade] at hfresh
        exact fun hold => (List.nodup_append.mp hfresh).2.2 _ hold _ (List.mem_singleton_self _) rfl
      have hpend : ∀ e ∈ d.pending.map (·.envelope), v'.id ≠ e.id := by
        intro e he heq
        obtain ⟨n, hn, rfl⟩ := List.mem_map.mp he
        exact hnew (heq ▸ hd.known n hn)
      have hann : ∀ e ∈ answered.announces, v'.id ≠ e.id :=
        fun e he heq => hnew (heq ▸ hannounced e he)
      rw [List.foldl_append, User.foldl_heed_of_ne hpend, User.foldl_heed_of_ne hann]

theorem Settled.of_server {d : Desk} (hd : d.Settled) {s : Server} (hcore : s.core = .users)
    (hrows : s.store.rows = d.server.store.rows) : Settled { d with server := s } :=
  ⟨hcore, hrows.trans hd.rows, hd.known, fun v hv => hd.calm v (hrows ▸ hv)⟩

theorem Settled.after_act {d : Desk} (hd : d.Settled) {a : Server.Action}
    (h : d.server.answered? a = none) : (d.after (.act a)).Settled := by
  rw [d.after_act_of_not_call h]
  exact hd.of_server ((d.server.after_core a).trans hd.core) (Server.after_rows_of_not_call h)

theorem Settled.after_announce {d : Desk} (hd : d.Settled) : (d.after (.announce 0)).Settled := by
  cases hpending : d.pending with
  | nil => simpa [Desk.after, hpending] using hd
  | cons n rest =>
    have hknown := hd.known
    have hcalm := hd.calm
    rw [hpending] at hknown hcalm
    simp only [Desk.after, hpending, List.getElem?_cons_zero, List.eraseIdx_cons_zero]
    refine ⟨hd.core, hd.rows, fun n' hn' => hknown n' (List.mem_cons_of_mem _ hn'), ?_⟩
    intro v hv a ha
    have hall := hcalm v hv a ha
    rw [List.map_cons, List.foldl_cons] at hall
    rcases User.get_foldl_heed v.id a (rest.map (·.envelope)) with hkeep | ⟨x, hset⟩
    · exact hkeep v rfl
    · rwa [hset _ (v.id_heed n.envelope), ← hset v rfl] at hall

theorem Settled.after {d : Desk} (hd : d.Settled) {m : Move} (hm : m.inOrder = true)
    (hfresh : (madeIds (d.after m).calls).Nodup) : (d.after m).Settled := by
  cases m with
  | act a =>
    cases a with
    | call c => exact hd.after_call c hfresh
    | _ => exact hd.after_act rfl
  | deliver => exact hd.of_server hd.core rfl
  | announce i =>
    obtain rfl : i = 0 := beq_iff_eq.mp hm
    exact hd.after_announce

theorem Settled.course {d : Desk} (hd : d.Settled) {moves : List Move}
    (hm : ∀ m ∈ moves, m.inOrder = true) (hfresh : (madeIds (d.course moves).calls).Nodup) :
    (d.course moves).Settled := by
  induction moves generalizing d with
  | nil => exact hd
  | cons m moves ih =>
    obtain ⟨hfirst, hrest⟩ := List.forall_mem_cons.mp hm
    have hnext := hd.after hfirst (hfresh.sublist ((d.after m).madeIds_sublist_course moves))
    exact ih hnext hrest hfresh

end Desk

namespace Channel

/-- No more payloads wait for the subscription under a name than the channel holds. -/
def holds (c : Channel) (who : String) : Bool :=
  c.subscribers.all fun s => !runs who s || c.sent - s.next ≤ c.capacity

/-- The action leaves the subscription under a name running and the channel connected and open, and
publishes nothing. -/
def Action.spares (who : String) : Action → Bool
  | .subscribe name => name != who
  | .unsubscribe name => name != who
  | .setConnected connected => connected
  | .publish _ => false
  | .close => false

section

variable {c : Channel} {who : String} {t : Standing} {es : List Envelope}

theorem Stands.length_le (h : c.Stands who t es) (hl : t.listening = true)
    (hholds : c.holds who = true) : es.length ≤ c.capacity := by
  obtain ⟨next, hplace, hawaits⟩ := h.listening hl
  have hmem : (⟨who, next, true⟩ : Subscriber) ∈ c.subscribers ∧ runs who ⟨who, next, true⟩ = true :=
    List.mem_filter.mp (hplace ▸ List.mem_singleton_self _)
  have hbehind := List.all_eq_true.mp hholds _ hmem.1
  have hsent := hawaits.sent
  rw [hmem.2, Bool.not_true, Bool.false_or, decide_eq_true_eq] at hbehind
  rw [List.length_map] at hsent
  dsimp only at hbehind hsent
  omega

theorem Stands.act_of_spares (h : c.Stands who ⟨true, false, true⟩ es) {a : Action}
    (ha : a.spares who = true) : (c.act a).1.Stands who ⟨true, false, true⟩ es := by
  cases a with
  | subscribe name => exact h.subscribe_other (bne_iff_ne.mp ha)
  | unsubscribe name =>
    have hother := h.unsubscribe name
    rwa [Standing.after, if_neg (bne_iff_ne.mp ha)] at hother
  | setConnected connected =>
    obtain rfl : connected = true := ha
    exact h.setConnected true
  | publish _ | close => cases ha

/-- Whoever has lost nothing receives all that has waited for it. -/
theorem Stands.envelopes_of_listening (h : c.Stands who t es) (hl : t.listening = true)
    (hheld : es.length ≤ c.capacity) : (received who c.drain.2).envelopes = es := by
  rw [h.received_of_listening hl, foldl_receive_encode, Nat.sub_eq_zero_of_le hheld]
  exact List.nil_append _

end

end Channel

namespace Desk

/-- The move spares the subscription under a name. -/
def Move.spares (who : String) : Move → Bool
  | .act (.channel a) => a.spares who
  | _ => true

/-- What is delivered in a move. -/
def deliveries (d : Desk) : Move → List Delivery
  | .act (.channel a) => (d.server.channel.perform a).2.deliveries
  | .deliver => d.server.channel.drain.2
  | _ => []

/-- The envelopes that whoever subscribes under a name receives in some moves. -/
def heard (d : Desk) (who : String) : List Move → List Envelope
  | [] => []
  | m :: moves => (Channel.received who (d.deliveries m)).envelopes ++ (d.after m).heard who moves

/-- At no time do more payloads wait for the subscription under a name than the channel holds. -/
def paced (d : Desk) (who : String) : List Move → Bool
  | [] => true
  | m :: moves => (d.after m).server.channel.holds who && (d.after m).paced who moves

theorem heard_append (d : Desk) (who : String) (moves more : List Move) :
    d.heard who (moves ++ more) = d.heard who moves ++ (d.course moves).heard who more := by
  induction moves generalizing d with
  | nil => rfl
  | cons m moves ih =>
    rw [List.cons_append, heard, heard, ih, List.append_assoc]
    rfl

/-- The copy of a subscriber lags behind the store by the envelopes that wait for it, and after them
by those that are still to be published. -/
structure Tracked (d : Desk) (who : String) (copy : List User) (es : List Envelope) : Prop where
  settled : d.Settled
  stands : d.server.channel.Stands who ⟨true, false, true⟩ es
  held : es.length ≤ d.server.channel.capacity
  known : ∀ u ∈ copy, u.id ∈ madeIds d.calls
  coherent : Coherent (mirrored copy (es ++ d.pending.map (·.envelope))) d.server.store.rows

section

variable {d : Desk} {who : String} {copy : List User} {es : List Envelope}

theorem mirrored_nil (copy : List User) : mirrored copy [] = copy := List.map_id copy

/-- The subscriber takes in what has waited for it. -/
theorem Tracked.drained (hd : d.Tracked who copy es) {s : Server} (hs : ({ d with server := s } : Desk).Settled)
    {c : Channel} (hc : c.Stands who ⟨true, false, true⟩ es) (hcapacity : c.capacity = d.server.channel.capacity)
    (hchannel : s.channel = c.drain.1) (hrows : s.store.rows = d.server.store.rows) :
    Tracked { d with server := s } who (mirrored copy (Channel.received who c.drain.2).envelopes) [] := by
  have hall := hc.envelopes_of_listening rfl (hcapacity ▸ hd.held)
  refine ⟨hs, hchannel ▸ hc.drain, Nat.zero_le _, fun u' hu' => ?_, ?_⟩
  · obtain ⟨u, hu, rfl⟩ := List.mem_map.mp hu'
    rw [User.id_foldl_heed]
    exact hd.known u hu
  · rw [hall, List.nil_append, ← mirrored_append]
    exact hrows ▸ hd.coherent

theorem Tracked.deliver (hd : d.Tracked who copy es) :
    (d.after .deliver).Tracked who
      (mirrored copy (Channel.received who (d.deliveries .deliver)).envelopes) [] := by
  have hsettled : (d.after .deliver).Settled := hd.settled.of_server hd.settled.core rfl
  exact hd.drained hsettled hd.stands rfl rfl rfl

theorem Tracked.after_call (hd : d.Tracked who copy es) (c : ClientCall)
    (hfresh : (madeIds (d.after (.act (.call c))).calls).Nodup) :
    (d.after (.act (.call c))).Tracked who copy es := by
  have hold := hfresh.sublist (d.madeIds_sublist_after (.act (.call c)))
  obtain ⟨hcalls, hrows, hpending⟩ := hd.settled.call hold c
  refine ⟨hd.settled.after_call c hfresh, hd.stands, hd.held, fun u hu => ?_, ?_⟩
  · exact (d.madeIds_sublist_after (.act (.call c))).subset (hd.known u hu)
  · rw [hrows, hpending, ← List.append_assoc]
    apply hd.coherent.replay
    intro made hmade u hu hid
    rw [hcalls, madeIds_append, hmade] at hfresh
    exact (List.nodup_append.mp hfresh).2.2 _ (hd.known u hu) _ (List.mem_singleton_self _) hid

theorem Tracked.after_announce (hd : d.Tracked who copy es)
    (hholds : (d.after (.announce 0)).server.channel.holds who = true) :
    ∃ es', (d.after (.announce 0)).Tracked who copy es' := by
  have hsettled := hd.settled.after_announce
  cases hpending : d.pending with
  | nil =>
    have hsame : d.after (.announce 0) = d := by simp [Desk.after, hpending]
    exact ⟨es, hsame.symm ▸ hd⟩
  | cons n rest =>
    have hcoherent := hd.coherent
    rw [hpending, List.map_cons, List.append_cons] at hcoherent
    have hready : d.server.channel.isReady = true := by
      rw [Channel.isReady, hd.stands.connected, hd.stands.closed]
      rfl
    have hstands := hd.stands.publish n.envelope
    rw [if_pos hready] at hstands
    simp only [Desk.after, hpending, List.getElem?_cons_zero, List.eraseIdx_cons_zero]
      at hholds hsettled ⊢
    refine ⟨es ++ [n.envelope], hsettled, hstands, ?_, hd.known, hcoherent⟩
    exact hstands.length_le rfl hholds

/-- A move that spares the subscription leaves the copy behind by no more than what then waits. -/
theorem Tracked.after (hd : d.Tracked who copy es) {m : Move} (hm : m.inOrder = true)
    (hspares : m.spares who = true) (hholds : (d.after m).server.channel.holds who = true)
    (hfresh : (madeIds (d.after m).calls).Nodup) :
    ∃ es', (d.after m).Tracked who
      (mirrored copy (Channel.received who (d.deliveries m)).envelopes) es' := by
  have hsettled := hd.settled.after hm hfresh
  have hnone {m : Move} (h : d.deliveries m = []) :
      mirrored copy (Channel.received who (d.deliveries m)).envelopes = copy := by
    rw [h]
    exact mirrored_nil copy
  cases m with
  | deliver => exact ⟨[], hd.deliver⟩
  | announce i =>
    obtain rfl : i = 0 := beq_iff_eq.mp hm
    rw [hnone rfl]
    exact hd.after_announce hholds
  | act a =>
    cases a with
    | call c =>
      rw [hnone rfl]
      exact ⟨es, hd.after_call c hfresh⟩
    | channel a =>
      have hcapacity := (d.server.channel.act_unchanged a).2
      exact ⟨[], hd.drained hsettled (hd.stands.act_of_spares hspares) hcapacity rfl rfl⟩
    | setFailing _ | setReachable _ | advance _ | checkNow | closeRepository | shutDown =>
      rw [hnone rfl]
      exact ⟨es, hsettled, hd.stands, hd.held, hd.known, hd.coherent⟩

theorem Tracked.course (hd : d.Tracked who copy es) {moves : List Move}
    (hm : ∀ m ∈ moves, m.inOrder = true ∧ m.spares who = true) (hpaced : d.paced who moves = true)
    (hfresh : (madeIds (d.course moves).calls).Nodup) :
    ∃ es', (d.course moves).Tracked who (mirrored copy (d.heard who moves)) es' := by
  induction moves generalizing d copy es with
  | nil =>
    rw [heard, mirrored_nil]
    exact ⟨es, hd⟩
  | cons m moves ih =>
    obtain ⟨⟨horder, hspares⟩, hrest⟩ := List.forall_mem_cons.mp hm
    rw [paced, Bool.and_eq_true] at hpaced
    have hfresh' := hfresh.sublist ((d.after m).madeIds_sublist_course moves)
    obtain ⟨es', hnext⟩ := hd.after horder hspares hpaced.1 hfresh'
    rw [heard, mirrored_append]
    exact ih hnext hrest hpaced.2 hfresh

end

/-- Someone subscribes when the moves before are over. -/
def joined (s : Server) (before : List Move) (who : String) : Desk :=
  ((opened s).course before).after (.act (.channel (.subscribe who)))

theorem joined_tracked {s : Server} {before : List Move} (hd : ((opened s).course before).Settled)
    (hready : ((opened s).course before).server.channel.isReady = true) (who : String)
    (hfresh : (madeIds (joined s before who).calls).Nodup) :
    (joined s before who).Tracked who (joined s before who).server.store.rows [] := by
  have hsettled : (joined s before who).Settled := hd.after_act rfl
  obtain ⟨hconnected, hclosed⟩ := Bool.and_eq_true_iff.mp hready
  have hopen := (Bool.not_eq_eq_eq_not ..).mp hclosed
  have hstands := Channel.stands_subscribe hopen who
  rw [hconnected, hopen] at hstands
  refine ⟨hsettled, hstands.drain, Nat.zero_le _, fun u hu => ?_, ?_⟩
  · rw [hsettled.rows] at hu
    exact id_mem_madeIds hu
  · -- No two rows have one identifier, and the pending envelopes tell of a row what stands there.
    intro u' hu' v hv hid a ha
    obtain ⟨u, hu, rfl⟩ := List.mem_map.mp hu'
    rw [User.id_foldl_heed] at hid
    obtain rfl := List.inj_on_of_nodup_map (hsettled.nodup hfresh) hu hv hid
    exact hsettled.calm u hu a ha

/-- The rows that stood when someone subscribed, after all envelopes that it has received since. -/
def mirror (s : Server) (before moves : List Move) (who : String) : List User :=
  mirrored (joined s before who).server.store.rows ((joined s before who).heard who moves)

/-- Calls are answered and their changes announced in their order, beside all else that may happen
to the server and its channel. Someone subscribes, copies the rows, and overwrites in the copy what
the envelopes carry that it receives. As long as its subscription is spared and no more payloads wait
for it than the channel holds, after a delivery all that the copy lacks is what is still to be
announced; if that is nothing, every account that still stands is in the copy what it is in the
store, but for the password. -/
theorem mirror_coherent {s : Server} (hs : s.core = .users) (hrows : s.store.rows = [])
    {before moves : List Move} {who : String} (hbefore : ∀ m ∈ before, m.inOrder = true)
    (hready : ((opened s).course before).server.channel.isReady = true)
    (hmoves : ∀ m ∈ moves, m.inOrder = true ∧ m.spares who = true)
    (hpaced : (joined s before who).paced who moves = true)
    (hfresh : (madeIds ((joined s before who).course moves).calls).Nodup) :
    let d := (joined s before who).course (moves ++ [.deliver])
    Coherent (mirrored (mirror s before (moves ++ [.deliver]) who) (d.pending.map (·.envelope)))
        d.server.store.rows ∧
      (d.pending = [] → Coherent (mirror s before (moves ++ [.deliver]) who) d.server.store.rows) := by
  intro d
  have hstart : List.Sublist (madeIds ((opened s).course before).calls)
      (madeIds (joined s before who).calls) := madeIds_sublist_after _ _
  have hfresh' := hfresh.sublist ((joined s before who).madeIds_sublist_course moves)
  have hopened := (opened_settled hs hrows).course hbefore (hfresh'.sublist hstart)
  obtain ⟨es, hcourse⟩ := (joined_tracked hopened hready who hfresh').course hmoves hpaced hfresh
  have hlast : d = ((joined s before who).course moves).after .deliver :=
    course_append _ moves [.deliver]
  have hmirror : mirror s before (moves ++ [.deliver]) who = mirrored
      (mirrored (joined s before who).server.store.rows ((joined s before who).heard who moves))
      (Channel.received who (((joined s before who).course moves).deliveries .deliver)).envelopes := by
    rw [mirror, heard_append, mirrored_append, heard, heard, List.append_nil]
  have hcoherent := hcourse.deliver.coherent
  rw [← hmirror, List.nil_append, ← hlast] at hcoherent
  refine ⟨hcoherent, fun hnone => ?_⟩
  rwa [hnone, List.map_nil, mirrored_nil] at hcoherent

/-- A change that is announced only when someone has subscribed, and two more since, one of an
account that is then removed. The channel holds two payloads. -/
theorem mirror_coherent_of_three_changes :
    let s : Server := { Server.initial with channel := { capacity := 2 } }
    let call (id : String) (request : Request) : Move := .act (.call { draw := ⟨id, .epoch⟩, request })
    let change (id : String) (profile : Profile) : Move := call "" (.update { id, profile })
    let before := [call "a" (.create { profile := { firstName := "Ada" } }), call "b" (.create {}),
      change "a" { nickname := "Countess" }]
    let moves := [.announce 0, change "b" { country := "UK" }, .act (.channel (.subscribe "other")),
      .announce 0, change "a" { lastName := "Lovelace", password := "secret" }, .announce 0,
      call "" (.delete { id := "b" })]
    let d := (joined s before "cache").course (moves ++ [.deliver])
    (joined s before "cache").paced "cache" moves = true ∧ d.pending.length = 0 ∧
      (mirror s before (moves ++ [.deliver]) "cache").map (fun u => (u.id, u.profile)) =
        [("a", { firstName := "Ada", lastName := "Lovelace", nickname := "Countess" }),
          ("b", { country := "UK" })] ∧
      Coherent (mirror s before (moves ++ [.deliver]) "cache") d.server.store.rows := by
  intro s call change before moves d
  have hbefore : ∀ m ∈ before, m.inOrder = true := by decide +kernel
  have hready : ((opened s).course before).server.channel.isReady = true := by decide +kernel
  have hmoves : ∀ m ∈ moves, m.inOrder = true ∧ m.spares "cache" = true := by decide +kernel
  have hpaced : (joined s before "cache").paced "cache" moves = true := by decide +kernel
  have hfresh : (madeIds ((joined s before "cache").course moves).calls).Nodup := by decide +kernel
  have hnone : d.pending.length = 0 := by decide +kernel
  have hcopy : (mirror s before (moves ++ [.deliver]) "cache").map (fun u => (u.id, u.profile)) =
      [("a", { firstName := "Ada", lastName := "Lovelace", nickname := "Countess" }),
        ("b", { country := "UK" })] := by decide +kernel
  have hcoherent := mirror_coherent rfl rfl hbefore hready hmoves hpaced hfresh
  exact ⟨hpaced, hnone, hcopy, hcoherent.2 (List.eq_nil_of_length_eq_zero hnone)⟩

end Desk

end Roster
