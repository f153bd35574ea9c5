import Mathlib.Data.List.Induction
import Roster.Notify.Delivery
/-! # What is written down of a notifier

Whatever a notifier does is written down as it happens. From this it can be told which payloads are
owed to a subscription: those that the transport has taken while the subscription was there and
nothing was closed. The transport may take payloads from others, also after the closing. -/
namespace Roster

/-- What happens at a notifier. -/
inductive Incident
  | subscribed (name : String)
  | left (name : String)
  /-- The transport takes a payload from the notifier. -/
  | accepted (payload : String)
  /-- The transport takes a payload from somebody else. -/
  | announced (payload : String)
  /-- The transport is found to be connected, or not. -/
  | contact (connected : Bool)
  /-- A handler is given an envelope. -/
  | received (name : String) (e : Envelope)
  | closed
  deriving DecidableEq, Repr

namespace Incident

/-- The incident begins or ends a subscription under a name. -/
def concerns (who : String) : Incident → Bool
  | subscribed name | left name => name == who
  | accepted _ | announced _ | contact _ | received .. | closed => false

def contact? : Incident → Option Bool
  | contact connected => some connected
  | subscribed _ | left _ | accepted _ | announced _ | received .. | closed => none

/-- It is the closing, or something that somebody else does. -/
def outer : Incident → Bool
  | closed | announced _ => true
  | subscribed _ | left _ | accepted _ | contact _ | received .. => false

/-- The transport takes a payload, from whomever. -/
def Takes (payload : String) (i : Incident) : Prop := i = .accepted payload ∨ i = .announced payload

end Incident

/-- The incidents of a run, oldest first. -/
abbrev Chronicle := List Incident

namespace Chronicle

variable {h more : Chronicle} {who payload : String}

/-- Whether the transport was connected when it was last heard of. A new one is. -/
def connected (h : Chronicle) : Bool := (h.filterMap Incident.contact?).getLast?.getD true

/-- A subscription under a name was begun before anything was closed, and has not ended. -/
def Subscribed (h : Chronicle) (who : String) : Prop :=
  ∃ before since, h = before ++ .subscribed who :: since ∧ .closed ∉ before ∧
    ∀ i ∈ since, i.concerns who = false

/-- The transport has taken a payload before anything was closed, while the subscription that still
stands under a name was there. -/
def Owed (h : Chronicle) (who payload : String) : Prop :=
  ∃ before between taken since, h = before ++ .subscribed who :: between ++ taken :: since ∧
    taken.Takes payload ∧ .closed ∉ before ++ between ∧ ∀ i ∈ between ++ since, i.concerns who = false

/-- Somebody else had the transport take a payload after the closing, while the subscription under a
name still stood. -/
def Late (h : Chronicle) (who payload : String) : Prop :=
  ∃ before between since, h = before ++ .subscribed who :: between ++ .announced payload :: since ∧
    .closed ∉ before ∧ .closed ∈ between ∧ ∀ i ∈ between ++ since, i.concerns who = false

/-- A payload that its subscription may be given. -/
def Sent (h : Chronicle) (who payload : String) : Prop := h.Owed who payload ∨ h.Late who payload

/-- Whatever a handler is given was due to its subscription. -/
def Lawful (due : Chronicle → String → String → Prop) (h : Chronicle) : Prop :=
  ∀ before who e since, h = before ++ .received who e :: since →
    ∃ payload, Envelope.decode payload = .ok e ∧ due before who payload

/-- What is due to a subscription stays so while nobody comes or goes under its name. -/
def Lasting (due : Chronicle → String → String → Prop) : Prop :=
  ∀ {h more who payload}, due h who payload → (∀ i ∈ more, i.concerns who = false) →
    due (h ++ more) who payload

/-- An incident of two chronicles is one of the first or one of the second. -/
theorem split_append {before since : Chronicle} {i : Incident}
    (heq : h ++ more = before ++ i :: since) :
    (∃ first, before = h ++ first ∧ more = first ++ i :: since) ∨
      ∃ rest, h = before ++ i :: rest ∧ since = rest ++ more := by
  rcases List.append_eq_append_iff.mp heq with ⟨first, hbefore, hmore⟩ | ⟨rest, hh, hrest⟩
  · exact .inl ⟨first, hbefore, hmore⟩
  · cases rest with
    | nil => exact .inl ⟨[], by simpa using hh.symm, by simpa using hrest.symm⟩
    | cons j rest =>
      obtain ⟨rfl, hsince⟩ := List.cons.inj hrest
      exact .inr ⟨rest, hh, hsince⟩

theorem connected_append (h : Chronicle) (i : Incident) :
    connected (h ++ [i]) = i.contact?.getD h.connected := by
  unfold connected
  rw [List.filterMap_append]
  cases hi : i.contact? with
  | none => simp [List.filterMap, hi]
  | some b => simp [List.filterMap, hi]

/-- Incidents that say nothing of the transport leave it as it was. -/
theorem connected_append_of_silent (hmore : ∀ i ∈ more, i.contact? = none) :
    connected (h ++ more) = h.connected := by
  have hnone : more.filterMap Incident.contact? = [] := List.filterMap_eq_nil_iff.mpr hmore
  rw [connected, List.filterMap_append, hnone, List.append_nil]
  rfl

theorem Subscribed.append (hs : h.Subscribed who) (hmore : ∀ i ∈ more, i.concerns who = false) :
    Subscribed (h ++ more) who := by
  obtain ⟨before, since, rfl, hopen, hsince⟩ := hs
  exact ⟨before, since ++ more, by simp, hopen, List.forall_mem_append.mpr ⟨hsince, hmore⟩⟩

theorem lasting_owed : Lasting Owed := by
  rintro h more who payload ⟨before, between, taken, since, rfl, htaken, hopen, hsince⟩ hmore
  refine ⟨before, between, taken, since ++ more, by simp, htaken, hopen, ?_⟩
  rw [← List.append_assoc]
  exact List.forall_mem_append.mpr ⟨hsince, hmore⟩

theorem lasting_late : Lasting Late := by
  rintro h more who payload ⟨before, between, since, rfl, hopen, hclosed, hsince⟩ hmore
  refine ⟨before, between, since ++ more, by simp, hopen, hclosed, ?_⟩
  rw [← List.append_assoc]
  exact List.forall_mem_append.mpr ⟨hsince, hmore⟩

theorem lasting_sent : Lasting Sent := fun hs hmore =>
  hs.imp (lasting_owed · hmore) (lasting_late · hmore)

theorem subscribed_append (hopen : .closed ∉ h) (who : String) :
    Subscribed (h ++ [.subscribed who]) who := ⟨h, [], rfl, hopen, by simp⟩

/-- What the transport takes before anything is closed is owed to whoever subscribes. -/
theorem Subscribed.owed (hs : h.Subscribed who) (hopen : .closed ∉ h) {taken : Incident}
    (htaken : taken.Takes payload) : Owed (h ++ [taken]) who payload := by
  obtain ⟨before, since, rfl, -, hsince⟩ := hs
  refine ⟨before, since, taken, [], by simp, htaken, ?_, by simpa using hsince⟩
  simp only [List.mem_append, List.mem_cons, not_or] at hopen ⊢
  exact ⟨hopen.1, hopen.2.2⟩

/-- What somebody else has the transport take is sent to whoever subscribes. -/
theorem Subscribed.sent (hs : h.Subscribed who) (payload : String) :
    Sent (h ++ [.announced payload]) who payload := by
  by_cases hclosed : .closed ∈ h
  · obtain ⟨before, since, rfl, hopen, hsince⟩ := hs
    refine .inr ⟨before, since, [], by simp, hopen, ?_, by simpa using hsince⟩
    simpa [hopen] using hclosed
  · exact .inl (hs.owed hclosed (.inr rfl))

section

variable {due : Chronicle → String → String → Prop}

/-- Handlers are given envelopes that were due to them. -/
def Handed (due : Chronicle → String → String → Prop) (h more : Chronicle) : Prop :=
  ∀ i ∈ more, ∃ who e payload, i = .received who e ∧ Envelope.decode payload = .ok e ∧
    due h who payload

theorem Handed.concerns (hm : Handed due h more) (who : String) :
    ∀ i ∈ more, i.concerns who = false := by
  intro i hi
  obtain ⟨_, _, _, rfl, -⟩ := hm i hi
  rfl

theorem Handed.contact? (hm : Handed due h more) : ∀ i ∈ more, i.contact? = none := by
  intro i hi
  obtain ⟨_, _, _, rfl, -⟩ := hm i hi
  rfl

theorem Handed.closed (hm : Handed due h more) : .closed ∉ more := by
  intro hi
  obtain ⟨_, _, _, heq, -⟩ := hm _ hi
  cases heq

theorem Lawful.append_of_silent (hh : Lawful due h) (hmore : ∀ who e, .received who e ∉ more) :
    Lawful due (h ++ more) := by
  intro before who e since heq
  rcases split_append heq with ⟨first, -, rfl⟩ | ⟨rest, hh', -⟩
  · exact absurd (by simp) (hmore who e)
  · exact hh before who e rest hh'

/-- What handlers are given stays lawful if it was due to them before any of it was given. -/
theorem Handed.lawful (hdue : Lasting due) (hm : Handed due h more) (hh : Lawful due h) :
    Lawful due (h ++ more) := by
  intro before who e since heq
  rcases split_append heq with ⟨first, rfl, rfl⟩ | ⟨rest, hh', -⟩
  · obtain ⟨_, _, payload, hgiven, hdecode, hpayload⟩ := hm (.received who e) (by simp)
    obtain ⟨rfl, rfl⟩ := Incident.received.inj hgiven
    have hsilent := hm.concerns who
    exact ⟨payload, hdecode, hdue hpayload fun i hi => hsilent i (List.mem_append_left _ hi)⟩
  · exact hh before who e rest hh'

end

/-- Where nobody else has anything taken after the closing, all that is given was owed. -/
theorem Lawful.owed (hh : Lawful Sent h)
    (hquiet : ∀ early late payload, h = early ++ .closed :: late → .announced payload ∉ late) :
    Lawful Owed h := by
  intro before who e since heq
  obtain ⟨payload, hdecode, howed | ⟨first, between, rest, rfl, -, hclosed, -⟩⟩ :=
    hh before who e since heq
  · exact ⟨payload, hdecode, howed⟩
  · obtain ⟨early, late, rfl⟩ := List.append_of_mem hclosed
    have hsplit : h = (first ++ .subscribed who :: early) ++
        .closed :: (late ++ .announced payload :: rest ++ .received who e :: since) := by simp [heq]
    exact absurd (by simp) (hquiet _ _ payload hsplit)

end Chronicle

section

variable {S M : Type} (step : S → M → S × Chronicle)

/-- One step after a run, with all that is written down. -/
def liveOn (l : S × Chronicle) (m : M) : S × Chronicle :=
  ((step l.1 m).1, l.2 ++ (step l.1 m).2)

/-- A run from some state, with all that is written down of it. -/
def live (s : S) (run : List M) : S × Chronicle := run.foldl (liveOn step) (s, [])

end

end Roster
