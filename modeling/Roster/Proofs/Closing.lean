import Roster.Postgres.Notifier
import Roster.Proofs.Broadcast
import Roster.Proofs.Chronicles
/-! # Closing is final

A notifier that was closed stays closed, and hands nothing to its transport any more. What handlers
are given was taken by the transport before that, while they were subscribed. Until then a notifier
is as ready as its transport was found to be connected. Both notifiers are watched in runs in which
deliveries come at any time. -/
namespace Roster

namespace Delivery

theorem mem_envelopes_payload {d : Delivery} {channel text : String} {e : Envelope}
    (h : e ∈ (d.payload channel text).envelopes) :
    e ∈ d.envelopes ∨ Envelope.decode text = .ok e := by
  unfold payload at h
  split at h
  · rename_i e' hdecode
    rcases List.mem_append.mp h with h | h
    · exact .inl h
    · rw [List.mem_singleton.mp h]
      exact .inr hdecode
  · exact .inl h

theorem subscriber_payload (d : Delivery) (channel text : String) :
    (d.payload channel text).subscriber = d.subscriber := by
  unfold payload
  split <;> rfl

/-- Envelopes come from payloads. -/
theorem mem_envelopes_payloads {d : Delivery} {channel : String} {texts : List String}
    {e : Envelope} (h : e ∈ (d.payloads channel texts).envelopes) :
    e ∈ d.envelopes ∨ ∃ text ∈ texts, Envelope.decode text = .ok e := by
  induction texts generalizing d with
  | nil => exact .inl h
  | cons text texts ih =>
    rcases ih h with h | ⟨other, hother, hdecode⟩
    · exact (mem_envelopes_payload h).imp_right fun hdecode => ⟨text, List.mem_cons_self, hdecode⟩
    · exact .inr ⟨other, List.mem_cons_of_mem _ hother, hdecode⟩

/-- What is written down of a delivery. -/
def incidents (d : Delivery) : Chronicle := d.envelopes.map (.received d.subscriber)

theorem handed {due : Chronicle → String → String → Prop} {d : Delivery} {h : Chronicle}
    (hdue : ∀ e ∈ d.envelopes,
      ∃ payload, Envelope.decode payload = .ok e ∧ due h d.subscriber payload) :
    h.Handed due d.incidents := by
  intro i hi
  obtain ⟨e, he, rfl⟩ := List.mem_map.mp hi
  obtain ⟨payload, hdecode, hpayload⟩ := hdue e he
  exact ⟨d.subscriber, e, payload, rfl, hdecode, hpayload⟩

end Delivery

namespace Channel

/-- What happens to a channel: it is acted on, whoever subscribes under a name takes the next thing
that waits, even if the subscription was just ended by closing, or all subscribers catch up. -/
inductive Move
  | act (a : Action)
  | take (who : String)
  | drain

/-- What is written down of an action. -/
def Reply.incidents (a : Action) (r : Reply) : Chronicle :=
  match a, r with
  | .subscribe name, .subscribed (.ok _) => [.subscribed name]
  | .unsubscribe name, _ => [.left name]
  | .publish es, r => (r.accepted (.publish es)).map fun e => .accepted e.encode
  | .setConnected connected, _ => [.contact connected]
  | .close, _ => [.closed]
  | _, _ => []

/-- The subscriber takes the next thing that waits for it. -/
def take (c : Channel) (s : Subscriber) : Channel × Chronicle :=
  match c.next? s with
  | some (r, t) =>
    ({ c with subscribers := c.subscribers.map fun u => if u = s then t else u },
      (Delivery.receive c.name { subscriber := s.name } r).incidents)
  | none => (c, [])

def move (c : Channel) : Move → Channel × Chronicle
  | .act a => ((c.act a).1, (c.act a).2.incidents a)
  | .take who =>
    match c.subscribers.find? fun s => s.name == who with
    | some s => c.take s
    | none => (c, [])
  | .drain => (c.drain.1, c.drain.2.flatMap Delivery.incidents)

/-- The subscription of a subscriber stands, and what waits for it is owed to it. -/
structure Waits (c : Channel) (h : Chronicle) (s : Subscriber) : Prop where
  subscribed : h.Subscribed s.name
  owed : ∃ texts, c.Awaits s texts ∧ ∀ text ∈ texts, h.Owed s.name text

/-- The channel is as its chronicle tells. -/
structure Lives (c : Channel) (h : Chronicle) : Prop where
  closed : c.closed = true ↔ .closed ∈ h
  connected : c.connected = h.connected
  waits : ∀ s ∈ c.subscribers, c.Waits h s
  lawful : h.Lawful Chronicle.Owed

section

variable {c d : Channel} {h more : Chronicle} {s t : Subscriber}

/-- What waits depends on the payloads and on the place of the subscriber alone. -/
theorem Awaits.congr {texts : List String} (ha : c.Awaits s texts) (hsent : d.sent = c.sent)
    (hring : d.ring = c.ring) (hcapacity : d.capacity = c.capacity) (hnext : t.next = s.next) :
    d.Awaits t texts :=
  ⟨by rw [hsent, hnext, ha.sent], by rw [hring, hcapacity, ha.ring]⟩

/-- Nothing else about a channel makes a difference to who waits there. -/
theorem Waits.congr (hw : c.Waits h s) (hsent : d.sent = c.sent) (hring : d.ring = c.ring)
    (hcapacity : d.capacity = c.capacity) (hname : t.name = s.name) (hnext : t.next = s.next) :
    d.Waits h t := by
  obtain ⟨hsubscribed, texts, ha, howed⟩ := hw
  refine ⟨hname ▸ hsubscribed, texts, ha.congr hsent hring hcapacity hnext, ?_⟩
  exact hname ▸ howed

theorem Waits.append (hw : c.Waits h s) (hmore : ∀ i ∈ more, i.concerns s.name = false) :
    c.Waits (h ++ more) s := by
  obtain ⟨hsubscribed, texts, ha, howed⟩ := hw
  refine ⟨hsubscribed.append hmore, texts, ha, fun text ht => ?_⟩
  exact Chronicle.lasting_owed (howed text ht) hmore

theorem Lives.isReady (hc : c.Lives h) (hopen : .closed ∉ h) : c.isReady = h.connected := by
  have hclosed : c.closed = false := Bool.eq_false_iff.mpr fun hc' => hopen (hc.closed.mp hc')
  simp [Channel.isReady, hclosed, hc.connected]

theorem Lives.subscribe (hc : c.Lives h) (name : String) :
    (c.move (.act (.subscribe name))).1.Lives (h ++ (c.move (.act (.subscribe name))).2) := by
  cases hclosed : c.closed with
  | true => simpa [move, act, Channel.subscribe, hclosed, Reply.incidents] using hc
  | false =>
    have hopen : .closed ∉ h := fun hm => by simp [hc.closed.mpr hm] at hclosed
    have hmove : c.move (.act (.subscribe name)) =
        ({ c with subscribers := c.without name ++ [{ name, next := c.sent }] },
          [.subscribed name]) := by
      simp [move, act, Channel.subscribe, hclosed, Reply.incidents]
    rw [hmove]
    refine ⟨by simp [hc.closed], ?_, ?_, hc.lawful.append_of_silent (by simp)⟩
    · rw [Chronicle.connected_append_of_silent (by simp [Incident.contact?])]
      exact hc.connected
    · refine List.forall_mem_append.mpr ⟨fun s hs => ?_, ?_⟩
      · obtain ⟨hs, hname⟩ := List.mem_filter.mp hs
        have hother : (Incident.subscribed name).concerns s.name = false :=
          beq_eq_false_iff_ne.mpr (bne_iff_ne.mp hname).symm
        have hstill := (hc.waits s hs).append (List.forall_mem_singleton.mpr hother)
        exact hstill.congr rfl rfl rfl rfl rfl
      · have hnew : Channel.Waits
            { c with subscribers := c.without name ++ [{ name, next := c.sent }] }
            (h ++ [.subscribed name]) { name, next := c.sent } :=
          ⟨Chronicle.subscribed_append hopen name, [], awaits_nil rfl, by simp⟩
        simpa using hnew

theorem Lives.unsubscribe (hc : c.Lives h) (name : String) :
    (c.unsubscribe name).1.Lives (h ++ [.left name]) := by
  refine ⟨by simpa [Channel.unsubscribe] using hc.closed, ?_, fun s hs => ?_,
    hc.lawful.append_of_silent (by simp)⟩
  · rw [Chronicle.connected_append_of_silent (by simp [Incident.contact?])]
    exact hc.connected
  · obtain ⟨hs, hname⟩ := List.mem_filter.mp hs
    have hother : (Incident.left name).concerns s.name = false :=
      beq_eq_false_iff_ne.mpr (bne_iff_ne.mp hname).symm
    have hstill := (hc.waits s hs).append (List.forall_mem_singleton.mpr hother)
    exact hstill.congr rfl rfl rfl rfl rfl

theorem Lives.setConnected (hc : c.Lives h) (connected : Bool) :
    (c.setConnected connected).Lives (h ++ [.contact connected]) := by
  refine ⟨by simpa [Channel.setConnected] using hc.closed, ?_, fun s hs => ?_,
    hc.lawful.append_of_silent (by simp)⟩
  · rw [Chronicle.connected_append]
    rfl
  · have hstill : c.Waits (h ++ [.contact connected]) s :=
      (hc.waits s hs).append (List.forall_mem_singleton.mpr rfl)
    exact hstill.congr rfl rfl rfl rfl rfl

theorem Lives.close (hc : c.Lives h) : c.close.Lives (h ++ [.closed]) := by
  refine ⟨by simp [Channel.close], ?_, fun t ht => ?_, hc.lawful.append_of_silent (by simp)⟩
  · rw [Chronicle.connected_append_of_silent (by simp [Incident.contact?])]
    exact hc.connected
  · obtain ⟨s, hs, rfl⟩ := List.mem_map.mp ht
    have hstill : c.Waits (h ++ [.closed]) s :=
      (hc.waits s hs).append (List.forall_mem_singleton.mpr rfl)
    exact hstill.congr rfl rfl rfl rfl rfl

/-- A payload that the channel takes waits for whoever subscribes. -/
theorem Lives.publish (hc : c.Lives h) (e : Envelope) :
    (c.publish e).1.Lives (h ++ if c.isReady then [.accepted e.encode] else []) := by
  cases hready : c.isReady with
  | false => simpa [Channel.publish, hready] using hc
  | true =>
    have hclosed : c.closed = false := by
      simp only [Channel.isReady, Bool.and_eq_true, Bool.not_eq_true'] at hready
      exact hready.2
    have hopen : .closed ∉ h := fun hm => by simp [hc.closed.mpr hm] at hclosed
    have hconnected : c.connected = Chronicle.connected (h ++ [.accepted e.encode]) := by
      rw [Chronicle.connected_append_of_silent (by simp [Incident.contact?])]
      exact hc.connected
    have hkept : ∀ s ∈ c.subscribers, c.Waits (h ++ [.accepted e.encode]) s := fun s hs =>
      (hc.waits s hs).append (List.forall_mem_singleton.mpr rfl)
    have hlawful : Chronicle.Lawful Chronicle.Owed (h ++ [.accepted e.encode]) :=
      hc.lawful.append_of_silent (by simp)
    simp only [Channel.publish, hready, Bool.not_true, Bool.false_eq_true, if_false, if_true]
    split
    · refine ⟨by simpa [Channel.push] using hc.closed, hconnected, fun s hs => ?_, hlawful⟩
      obtain ⟨hsubscribed, texts, ha, howed⟩ := hkept s hs
      refine ⟨hsubscribed, texts ++ [e.encode], ha.push e.encode, ?_⟩
      have hnew : Chronicle.Owed (h ++ [.accepted e.encode]) s.name e.encode :=
        (hc.waits s hs).subscribed.owed hopen (.inl rfl)
      exact List.forall_mem_append.mpr ⟨howed, by simpa using hnew⟩
    · exact ⟨by simpa using hc.closed, hconnected, hkept, hlawful⟩

theorem Lives.publishAll (hc : c.Lives h) (es : List Envelope) :
    (c.publishAll es).1.Lives
      (h ++ if c.isReady then es.map fun e => .accepted e.encode else []) := by
  induction es generalizing c h with
  | nil => simpa [Channel.publishAll] using hc
  | cons e es ih =>
    have hrest := ih (hc.publish e)
    rw [isReady_publish] at hrest
    cases hready : c.isReady <;> simpa [Channel.publishAll, hready] using hrest

/-- What is taken next was waiting, and whatever else was waiting may be taken later. -/
theorem Awaits.of_next {texts : List String} {r : Receipt} (ha : c.Awaits s texts)
    (hnext : c.next? s = some (r, t)) :
    t.name = s.name ∧ (∀ text, r = .payload text → text ∈ texts) ∧
      ∃ rest, c.Awaits t rest ∧ ∀ text ∈ rest, text ∈ texts := by
  unfold next? at hnext
  split at hnext
  · rename_i hnone
    obtain ⟨text, hhead, heq⟩ := Option.map_eq_some_iff.mp hnext
    obtain ⟨rfl, rfl⟩ := Prod.mk.inj heq
    rw [ha.lost_eq] at hnone
    rw [ha.backlog_eq, hnone, List.drop_zero] at hhead
    have hmem : text ∈ texts := List.mem_of_head? hhead
    refine ⟨rfl, fun other hother => Receipt.payload.inj hother ▸ hmem, texts.drop 1, ?_, ?_⟩
    · exact ha.drop (List.length_pos_of_mem hmem)
    · exact fun text => List.mem_of_mem_drop
  · obtain ⟨rfl, rfl⟩ := Prod.mk.inj (Option.some.inj hnext)
    refine ⟨rfl, fun text htext => (by cases htext), texts.drop (c.lost s), ?_, ?_⟩
    · exact ha.drop (ha.lost_eq ▸ Nat.sub_le _ _)
    · exact fun text => List.mem_of_mem_drop

/-- Subscribers are given what was owed to them, and are still owed the rest. -/
theorem Lives.handed (hc : c.Lives h) (hm : h.Handed Chronicle.Owed more) (hclosed : d.closed = c.closed)
    (hconnected : d.connected = c.connected) (hwaits : ∀ t ∈ d.subscribers, d.Waits h t) :
    d.Lives (h ++ more) := by
  refine ⟨?_, ?_, fun t ht => ?_, hm.lawful Chronicle.lasting_owed hc.lawful⟩
  · rw [hclosed, hc.closed, List.mem_append, or_iff_left hm.closed]
  · rw [Chronicle.connected_append_of_silent hm.contact?, hconnected]
    exact hc.connected
  · exact (hwaits t ht).append (hm.concerns t.name)

theorem Lives.take (hc : c.Lives h) (hs : s ∈ c.subscribers) :
    (c.take s).1.Lives (h ++ (c.take s).2) := by
  obtain ⟨hsubscribed, texts, ha, howed⟩ := hc.waits s hs
  unfold Channel.take
  cases hnext : c.next? s with
  | none => simpa using hc
  | some given =>
    obtain ⟨r, t⟩ := given
    obtain ⟨hname, hpayload, rest, hrest, hsub⟩ := ha.of_next hnext
    dsimp only
    refine hc.handed (Delivery.handed fun e he => ?_) rfl rfl fun u hu => ?_
    · cases r with
      | lagged skipped => cases he
      | payload text =>
        rcases Delivery.mem_envelopes_payload he with he | hdecode
        · cases he
        · rw [Delivery.receive, Delivery.subscriber_payload]
          exact ⟨text, hdecode, howed text (hpayload text rfl)⟩
    · obtain ⟨v, hv, rfl⟩ := List.mem_map.mp hu
      split
      · refine ⟨hname ▸ hsubscribed, rest, hrest.congr rfl rfl rfl rfl, fun text ht => ?_⟩
        exact hname ▸ howed text (hsub text ht)
      · exact (hc.waits v hv).congr rfl rfl rfl rfl rfl

theorem Lives.drain (hc : c.Lives h) :
    c.drain.1.Lives (h ++ c.drain.2.flatMap Delivery.incidents) := by
  refine hc.handed (fun i hi => ?_) rfl rfl fun t ht => ?_
  · obtain ⟨delivery, hd, hi⟩ := List.mem_flatMap.mp hi
    obtain ⟨s, hs, rfl⟩ := List.mem_map.mp hd
    obtain ⟨-, texts, ha, howed⟩ := hc.waits s hs
    refine Delivery.handed (fun e he => ?_) i hi
    rw [subscriber_deliver]
    unfold deliver at he
    split at he
    · rcases Delivery.mem_envelopes_payloads he with he | ⟨text, ht, hdecode⟩
      · cases he
      · rw [ha.backlog_eq] at ht
        exact ⟨text, hdecode, howed text (List.mem_of_mem_drop ht)⟩
    · cases he
  · obtain ⟨s, hs, rfl⟩ := List.mem_map.mp ht
    exact ⟨(hc.waits s hs).subscribed, [], awaits_nil rfl, by simp⟩

theorem Lives.act (hc : c.Lives h) (a : Action) :
    (c.act a).1.Lives (h ++ (c.act a).2.incidents a) := by
  cases a with
  | subscribe name => exact hc.subscribe name
  | unsubscribe name => exact hc.unsubscribe name
  | publish es =>
    have hall := hc.publishAll es
    have hincidents : Reply.incidents (.publish es) (.published (c.publishAll es).2) =
        if c.isReady then es.map fun e => .accepted e.encode else [] := by
      rw [Reply.incidents, accepted_publishAll]
      split <;> rfl
    exact hincidents ▸ hall
  | setConnected connected => exact hc.setConnected connected
  | close => exact hc.close

theorem Lives.move (hc : c.Lives h) (m : Move) : (c.move m).1.Lives (h ++ (c.move m).2) := by
  cases m with
  | act a => exact hc.act a
  | take who =>
    unfold Channel.move
    dsimp only
    split
    · rename_i s hs
      exact hc.take (List.mem_of_find?_eq_some hs)
    · simpa using hc
  | drain => exact hc.drain

end

end Channel

end Roster
