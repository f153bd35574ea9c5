import Mathlib.Data.List.Nodup
import Roster.Proofs.Exchanges
import Roster.Proofs.Plans
import Roster.Proofs.Rows
/-! # The two repositories agree

A repository over databases that give its statements their standard meaning answers every command as
the repository in memory does, and their tables hold the same rows. The one keeps its rows in the
order of their creation, the other sorts them by it. -/
namespace Roster
open Postgres Sql

namespace Repository

variable {σ : Type}

/-- What a repository makes of attempts, one after the other. -/
def course (repository : Repository σ) : σ → List Attempt → List (Run σ)
  | _, [] => []
  | s, a :: attempts => repository a s :: course repository (repository a s).state attempts

end Repository

namespace Attempt

/-- The identifier and the time of an account that the attempt makes. -/
def making? (a : Attempt) : Option Draw :=
  match a.command with
  | .create _ => if a.awaited then some a.draw else none
  | .update .. | .delete _ | .get .. => none

end Attempt

/-- New accounts get identifiers of their own and each is later than all before. -/
structure Fresh (rows : List User) (attempts : List Attempt) : Prop where
  ids : (rows.map (·.id) ++ (attempts.filterMap Attempt.making?).map (·.id)).Nodup
  times : (rows.map (·.createdAt) ++ (attempts.filterMap Attempt.making?).map (·.now)).Pairwise
    (· < ·)

namespace Fresh

variable {rows : List User} {a : Attempt} {attempts : List Attempt}

theorem nodup (h : Fresh rows attempts) : (rows.map (·.id)).Nodup :=
  h.ids.sublist (List.sublist_append_left _ _)

theorem pairwise (h : Fresh rows attempts) : rows.Pairwise (·.createdAt < ·.createdAt) :=
  List.pairwise_map.mp (h.times.sublist (List.sublist_append_left _ _))

theorem eq_of_createdAt_eq (h : Fresh rows attempts) {u v : User} (hu : u ∈ rows) (hv : v ∈ rows)
    (heq : u.createdAt = v.createdAt) : u = v := by
  have hn : (rows.map (·.createdAt)).Nodup := by
    refine (List.pairwise_map.mpr h.pairwise).imp ?_
    rintro s _ hlt rfl
    exact Time.Timestamp.lt_irrefl s hlt
  exact List.inj_on_of_nodup_map hn hu hv heq

/-- Rows that keep their identifiers and times, or are fewer, stay fresh. -/
theorem of_sublist (h : Fresh rows (a :: attempts)) {changed : List User}
    (hids : (changed.map (·.id)).Sublist (rows.map (·.id)))
    (htimes : (changed.map (·.createdAt)).Sublist (rows.map (·.createdAt))) :
    Fresh changed attempts := by
  have hmaking : (attempts.filterMap Attempt.making?).Sublist
      ((a :: attempts).filterMap Attempt.making?) :=
    (List.sublist_cons_self a attempts).filterMap _
  exact ⟨h.ids.sublist (hids.append (hmaking.map _)), h.times.sublist (htimes.append (hmaking.map _))⟩

theorem not_mem_of_making (h : Fresh rows (a :: attempts)) {draw : Draw}
    (hm : a.making? = some draw) : draw.id ∉ rows.map (·.id) := by
  have hids := h.ids
  rw [List.filterMap_cons_some hm, List.map_cons] at hids
  exact fun hmem => (List.nodup_append.mp hids).2.2 _ hmem _ List.mem_cons_self rfl

theorem append (h : Fresh rows (a :: attempts)) {draw : Draw} (hm : a.making? = some draw)
    (profile : Profile) : Fresh (rows ++ [⟨draw.id, profile, draw.now, draw.now⟩]) attempts := by
  obtain ⟨hids, htimes⟩ := h
  rw [List.filterMap_cons_some hm, List.map_cons] at hids htimes
  exact ⟨by simpa using hids, by simpa using htimes⟩

end Fresh

/-- What a database answers is what the rows in memory give, and its table is theirs. -/
def Agrees (draw : Draw) (command : Command) (rows : List User) (answer : Except String Answer)
    (after : List User) : Prop :=
  ∃ found, answer = .ok found ∧
    match MemoryStore.perform rows draw command with
    | .ok (r, changed) => reply draw command found = .ok r ∧ after.Perm changed
    | .error e => reply draw command found = .error e ∧ after.Perm rows

section

variable {collate : String → String → Prop} {table after rows : List User} {a : Attempt}
  {attempts : List Attempt} {answer : Except String Answer} {draw : Draw}

/-- A change of the rows with an identifier keeps what no change of a single row touches. -/
theorem map_changed {β : Type} {f : User → β} {id : String} {changes : Profile}
    {now : Time.Timestamp} (hf : ∀ u : User, f (u.apply changes now) = f u) (rows : List User) :
    (rows.map fun u => if u.id = id then u.apply changes now else u).map f = rows.map f := by
  rw [List.map_map]
  refine List.map_congr_left fun u _ => ?_
  dsimp only [Function.comp]
  split
  · exact hf u
  · rfl

theorem countP_id_eq_zero_iff (hperm : table.Perm rows) (id : String) :
    table.countP (meets [(.id, .text id)]) = 0 ↔ ∀ u ∈ rows, u.id ≠ id := by
  simp [List.countP_eq_zero, meets_id, hperm.mem_iff]

theorem agrees_create {profile : Profile} (hperm : table.Perm rows)
    (hid : draw.id ∉ rows.map (·.id))
    (h : ((Command.create profile).plan draw).Carries collate table answer after) :
    Agrees draw (.create profile) rows answer after := by
  have hrequired : Plan.required ⊆
      (Column.all.map fun c => (c, newValue draw profile c)).map (·.1) := by
    intro c _
    simp [Column.mem_all]
  have hnew : (assign default (Column.all.map fun c => (c, newValue draw profile c))).id ∉
      table.map (·.id) := by
    rw [assign_newRow, (hperm.map _).mem_iff]
    exact hid
  simp only [Command.plan, Plan.Carries, Plan.change?] at h
  rw [if_pos ⟨sound_newRow draw profile, hrequired, hnew⟩, assign_newRow] at h
  obtain ⟨rfl, hafter⟩ := h
  refine ⟨_, rfl, rfl, ?_⟩
  exact hafter.trans ((hperm.cons _).trans (List.perm_append_singleton _ rows).symm)

theorem agrees_update {id : String} {changes : Profile} (hperm : table.Perm rows)
    (hn : (rows.map (·.id)).Nodup)
    (h : ((Command.update id changes).plan draw).Carries collate table answer after) :
    Agrees draw (.update id changes) rows answer after := by
  let change (u : User) : User := if u.id = id then u.apply changes draw.now else u
  have hchange (u : User) : (if meets [(.id, .text id)] u = true then
      assign u (Command.changesOf draw changes) else u) = change u := by
    simp only [meets_id, decide_eq_true_eq, assign_changesOf, change]
  have hunique : ((table.map change).map (·.id)).Nodup := by
    rw [map_changed (fun _ => rfl) table, (hperm.map _).nodup_iff]
    exact hn
  simp only [Command.plan, Plan.Carries, Plan.change?, hchange] at h
  rw [if_pos ⟨sound_changesOf draw changes, hunique⟩] at h
  obtain ⟨rfl, hafter⟩ := h
  have hnone := countP_id_eq_zero_iff hperm id
  have hkept : after.Perm (rows.map change) := hafter.trans (hperm.map change)
  refine ⟨_, rfl, ?_⟩
  cases hc : changeRow id (fun u => u.apply changes draw.now) rows with
  | none =>
    have hmiss := changeRow_eq_none_iff.mp hc
    have hall : rows.map change = rows := by
      have hid : ∀ u ∈ rows, change u = u := fun u hu => if_neg (hmiss u hu)
      rw [List.map_congr_left hid, List.map_id']
    simp only [MemoryStore.perform, hc, reply, hnone.mpr hmiss, if_true]
    exact ⟨rfl, hall ▸ hkept⟩
  | some changed =>
    have hrows : changed = rows.map change := changeRow_eq_map hn hc
    have hhit : ¬ ∀ u ∈ rows, u.id ≠ id := fun hmiss => by
      rw [changeRow_eq_none_iff.mpr hmiss] at hc
      cases hc
    simp only [MemoryStore.perform, hc, reply, if_neg (hnone.not.mpr hhit)]
    exact ⟨trivial, hrows ▸ hkept⟩

theorem agrees_delete {id : String} (hperm : table.Perm rows)
    (h : ((Command.delete id).plan draw).Carries collate table answer after) :
    Agrees draw (.delete id) rows answer after := by
  have hmeets : (fun u => !meets [(Column.id, Value.text id)] u) = fun u : User => u.id != id := by
    funext u
    rw [meets_id]
    rfl
  simp only [Command.plan, Plan.Carries, Plan.change?, hmeets] at h
  obtain ⟨rfl, hafter⟩ := h
  have hnone := countP_id_eq_zero_iff hperm id
  have hkept := hafter.trans (hperm.filter fun u => u.id != id)
  refine ⟨_, rfl, ?_⟩
  by_cases hmiss : ∀ u ∈ rows, u.id ≠ id
  · have hlength := length_filter_ne_eq_iff.mpr hmiss
    have hall : rows.filter (fun u => u.id != id) = rows :=
      List.filter_eq_self.mpr fun u hu => bne_iff_ne.mpr (hmiss u hu)
    simp only [MemoryStore.perform, if_pos hlength, reply, hnone.mpr hmiss, if_true]
    exact ⟨rfl, hall ▸ hkept⟩
  · have hlength := length_filter_ne_eq_iff.not.mpr hmiss
    simp only [MemoryStore.perform, if_neg hlength, reply, if_neg (hnone.not.mpr hmiss)]
    exact ⟨trivial, hkept⟩

theorem agrees_get {conditions : Conditions} {page : Page} (hperm : table.Perm rows)
    (hfresh : Fresh rows attempts)
    (h : ((Command.get conditions page).plan draw).Carries collate table answer after) :
    Agrees draw (.get conditions page) rows answer after := by
  obtain ⟨hafter, sorted, hsorted, hpairwise, rfl⟩ := h
  have hholds : rows.filter (meets (conditions.entries.map fun c => (.ofKey c.1, .text c.2))) =
      rows.filter conditions.holds :=
    List.filter_congr fun u _ => meets_entries conditions u
  have hfound : sorted.Perm (rows.filter conditions.holds) :=
    hholds ▸ hsorted.trans (hperm.filter _)
  have hcreated : (rows.filter conditions.holds).Pairwise
      (Precedes collate [.createdAt, .id]) :=
    (hfresh.pairwise.filter _).imp fun hlt => .inl hlt
  have hsame : sorted = rows.filter conditions.holds := by
    refine List.Perm.eq_of_pairwise ?_ hpairwise hcreated hfound
    intro u v hu hv huv hvu
    have hu := List.mem_of_mem_filter (hfound.mem_iff.mp hu)
    have hv := List.mem_of_mem_filter hv
    rcases huv with huv | ⟨heq, -⟩
    · rcases hvu with hvu | ⟨heq, -⟩
      · exact (Time.Timestamp.lt_irrefl _ (Time.Timestamp.lt_trans huv hvu)).elim
      · exact hfresh.eq_of_createdAt_eq hu hv (Value.time.inj heq).symm
    · exact hfresh.eq_of_createdAt_eq hu hv (Value.time.inj heq)
  exact ⟨_, rfl, by rw [hsame]; rfl, hafter.trans hperm⟩

/-- Where tables agree, they agree after every command. -/
theorem agrees (hwaits : a.awaited = true) (hperm : table.Perm rows)
    (hfresh : Fresh rows (a :: attempts))
    (h : (a.command.plan a.draw).Carries collate table answer after) :
    Agrees a.draw a.command rows answer after := by
  cases hc : a.command with
  | create profile =>
    rw [hc] at h
    have hm : a.making? = some a.draw := by simp [Attempt.making?, hc, hwaits]
    exact agrees_create hperm (hfresh.not_mem_of_making hm) h
  | update id changes =>
    rw [hc] at h
    exact agrees_update hperm hfresh.nodup h
  | delete id =>
    rw [hc] at h
    exact agrees_delete hperm h
  | get conditions page =>
    rw [hc] at h
    exact agrees_get hperm hfresh h

end

theorem Fresh.after {s : MemoryStore} {a : Attempt} {attempts : List Attempt}
    (h : Fresh s.rows (a :: attempts)) (hs : s.failing = false) :
    Fresh (MemoryStore.repository a s).state.rows attempts := by
  have hkeep : Fresh s.rows attempts := h.of_sublist (.refl _) (.refl _)
  cases hwaits : a.awaited with
  | false => simpa [MemoryStore.repository, hwaits] using hkeep
  | true =>
    simp only [MemoryStore.repository, hwaits, hs]
    cases hc : a.command with
    | create profile =>
      have hm : a.making? = some a.draw := by simp [Attempt.making?, hc, hwaits]
      exact h.append hm profile
    | update id changes =>
      simp only [MemoryStore.perform]
      cases hch : changeRow id (fun u => u.apply changes a.draw.now) s.rows with
      | none => exact hkeep
      | some changed =>
        have hrows := changeRow_eq_map h.nodup hch
        have hids : changed.map (·.id) = s.rows.map (·.id) :=
          hrows ▸ map_changed (fun _ => rfl) s.rows
        have htimes : changed.map (·.createdAt) = s.rows.map (·.createdAt) :=
          hrows ▸ map_changed (fun _ => rfl) s.rows
        exact h.of_sublist (hids ▸ .refl _) (htimes ▸ .refl _)
    | delete id =>
      by_cases hall : (s.rows.filter fun u => u.id != id).length = s.rows.length
      · simp only [MemoryStore.perform, if_pos hall]
        exact hkeep
      · simp only [MemoryStore.perform, if_neg hall]
        exact h.of_sublist (List.filter_sublist.map _) (List.filter_sublist.map _)
    | get conditions page => exact hkeep

theorem MemoryStore.failing_repository (a : Attempt) (s : MemoryStore) :
    (MemoryStore.repository a s).state.failing = s.failing := by
  unfold MemoryStore.repository
  dsimp only
  split
  · rfl
  · split
    · rfl
    · split <;> rfl

section

variable {σ : Type} {peers : Peers σ} {table : σ → List User} {collate : String → String → Prop}

/-- One attempt has the same result in both, and leaves the same rows. -/
theorem attempt_agrees (hpeers : Standard peers table collate) {p : Pair σ} {s : MemoryStore}
    {a : Attempt} {attempts : List Attempt} (hp : p.Usable) (hs : s.failing = false)
    (hrows : (table p.peers).Perm s.rows) (hwithin : a.Within)
    (hfresh : Fresh s.rows (a :: attempts)) :
    let x := Postgres.repository peers a p
    let y := MemoryStore.repository a s
    x.result = y.result ∧ (table x.state.peers).Perm y.state.rows ∧ x.state.Usable := by
  cases hwaits : a.awaited with
  | false => simpa [Postgres.repository, MemoryStore.repository, hwaits] using ⟨hrows, hp⟩
  | true =>
    let side := (statement a.draw a.command).1
    let sent := (statement a.draw a.command).2
    obtain ⟨q, hq, hstate, husable⟩ := exec_execute hpeers.admits hp side sent
    have hcarries := hpeers.carries side sent p.peers _ (a.command.planOf?_statement a.draw)
      hwithin.plan (a.command.master_or_reads a.draw)
    obtain ⟨found, hfound, hagrees⟩ := agrees hwaits hrows hfresh hcarries
    rw [hfound] at hq
    rw [← hstate] at hagrees
    have hx : Postgres.repository peers a p =
        { state := q, result := some (reply a.draw a.command found) } := by
      have hexec : (execute peers (statement a.draw a.command).1
          (statement a.draw a.command).2).exec p = (.ok found, q) := hq
      simp only [Postgres.repository, hwaits, hexec]
      rfl
    rw [hx]
    cases hperform : MemoryStore.perform s.rows a.draw a.command with
    | error e =>
      rw [hperform] at hagrees
      obtain ⟨hreply, hafter⟩ := hagrees
      simp only [MemoryStore.repository, hwaits, hs, hperform]
      exact ⟨congrArg some hreply, hafter, husable⟩
    | ok done =>
      rw [hperform] at hagrees
      obtain ⟨hreply, hafter⟩ := hagrees
      simp only [MemoryStore.repository, hwaits, hs, hperform]
      exact ⟨congrArg some hreply, hafter, husable⟩

/-- Over databases that give its statements their standard meaning, a repository is the one in
memory: whatever is asked of both has the same results, and they hold the same rows. -/
theorem repositories_agree (hpeers : Standard peers table collate) {p : Pair σ} {s : MemoryStore}
    {attempts : List Attempt} (hp : p.Usable) (hs : s.failing = false)
    (hrows : (table p.peers).Perm s.rows) (hwithin : ∀ a ∈ attempts, a.Within)
    (hfresh : Fresh s.rows attempts) :
    List.Forall₂ (fun x y => x.result = y.result ∧ (table x.state.peers).Perm y.state.rows)
      ((Postgres.repository peers).course p attempts)
      (MemoryStore.repository.course s attempts) := by
  induction attempts generalizing p s with
  | nil => exact .nil
  | cons a attempts ih =>
    obtain ⟨ha, hwithin⟩ := List.forall_mem_cons.mp hwithin
    obtain ⟨hresult, hafter, husable⟩ := attempt_agrees hpeers hp hs hrows ha hfresh
    have hfailing := (MemoryStore.failing_repository a s).trans hs
    exact .cons ⟨hresult, hafter⟩ (ih husable hfailing hafter hwithin (hfresh.after hs))

end

/-- Two accounts are made, one is changed and listed, and the other is deleted twice. -/
def twoAccounts : List Attempt :=
  [{ draw := ⟨"b", ⟨1, 0, by decide⟩⟩, command := .create { nickname := "Ada", country := "UK" } },
    { draw := ⟨"a", ⟨2, 0, by decide⟩⟩, command := .create { nickname := "Bob" } },
    { draw := ⟨"x", ⟨3, 0, by decide⟩⟩, command := .update "a" { country := "UK", email := "b@c" } },
    { draw := ⟨"x", ⟨4, 0, by decide⟩⟩,
      command := .get (Conditions.empty.insert .country "UK") ⟨1, 2⟩ },
    { draw := ⟨"x", ⟨5, 0, by decide⟩⟩, command := .delete "b" },
    { draw := ⟨"x", ⟨6, 0, by decide⟩⟩, command := .delete "b" }]

theorem repositories_agree_of_two_accounts :
    ((Postgres.repository oneTable).course
        { master := { endpoint := {} }, replica := { endpoint := {} }, peers := [] }
        twoAccounts).map (·.result) =
      [some (.ok (.created "b")), some (.ok (.created "a")), some (.ok .done),
        some (.ok (.users [⟨"a", { nickname := "Bob", email := "b@c", country := "UK" },
          ⟨2, 0, by decide⟩, ⟨3, 0, by decide⟩⟩])),
        some (.ok .done), some (.error (.notFound "delete"))] := by
  have husable : Pair.Usable (σ := List User)
      { master := { endpoint := {} }, replica := { endpoint := {} }, peers := [] } := by
    have hroom : Pool.Usable { endpoint := {} } :=
      ⟨rfl, .inr ⟨by decide, .disable, by decide +kernel, rfl⟩⟩
    rintro (_ | _) <;> exact hroom
  have hwithin : ∀ a ∈ twoAccounts, a.Within := by decide
  have hfresh : Fresh [] twoAccounts := ⟨by decide, by decide⟩
  have hagrees := repositories_agree standard_oneTable husable (s := {}) rfl (.refl _) hwithin hfresh
  have hsame := hagrees.imp fun _ _ h => h.1
  rw [← List.forall₂_map_right_iff, ← List.forall₂_map_left_iff, List.forall₂_eq_eq_eq] at hsame
  rw [hsame]
  decide

end Roster
