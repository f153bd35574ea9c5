import Roster.Proofs.Agreement
/-! # Rows in good order

Whatever is asked of accounts in memory, their rows stay in good order, so that the first row with
an identifier is the only one. A change touches that row and no other. -/
namespace Roster

namespace Time.Timestamp

instance : LE Timestamp := ⟨fun a b => ¬ b < a⟩

instance (a b : Timestamp) : Decidable (a ≤ b) := inferInstanceAs (Decidable (¬ b < a))

theorem le_refl (a : Timestamp) : a ≤ a := lt_irrefl a

end Time.Timestamp

/-- What an attempt that has come to a result makes of the rows: a new account is the last one, a
change replaces one row by another with the supplied attributes, a removal takes one row out. -/
def Attempt.Makes (a : Attempt) (result : Option (Except RepositoryError Reply))
    (rows changed : List User) : Prop :=
  match a.command, result with
  | .create profile, some (.ok _) =>
    changed = rows ++ [⟨a.draw.id, profile, a.draw.now, a.draw.now⟩]
  | .update id changes, some (.ok _) =>
    ∃ before u v after, rows = before ++ u :: after ∧ changed = before ++ v :: after ∧
      u.id = id ∧ (∀ w ∈ before ++ after, w.id ≠ id) ∧
      v.id = u.id ∧ v.createdAt = u.createdAt ∧ v.updatedAt = a.draw.now ∧
      ∀ x, v.profile.get x =
        if changes.get x = "" then u.profile.get x else changes.get x
  | .delete id, some (.ok _) =>
    ∃ before u after, rows = before ++ u :: after ∧ changed = before ++ after ∧
      u.id = id ∧ ∀ w ∈ before ++ after, w.id ≠ id
  | _, _ => changed = rows

namespace MemoryStore

theorem makes_perform {rows : List User} (hn : (rows.map (·.id)).Nodup) (a : Attempt) :
    match perform rows a.draw a.command with
    | .ok (reply, changed) => a.Makes (some (.ok reply)) rows changed
    | .error e => a.Makes (some (.error e)) rows rows := by
  obtain ⟨draw, command, awaited⟩ := a
  cases command with
  | create profile => rfl
  | update id changes =>
    cases hchange : changeRow id (fun u => u.apply changes draw.now) rows with
    | none =>
      simp only [perform, hchange]
      rfl
    | some changed =>
      simp only [perform, hchange]
      obtain ⟨before, u, after, rfl, rfl, hothers⟩ := exists_row hn (exists_of_changeRow hchange)
      refine ⟨before, u, u.apply changes draw.now, after, rfl, ?_, rfl, hothers, rfl, rfl, rfl, ?_⟩
      · rw [changeRow_eq_map hn hchange]
        exact map_change_eq hothers _
      · exact u.profile.get_overwrite changes
  | delete id =>
    by_cases hmiss : ∀ u ∈ rows, u.id ≠ id
    · simp only [perform, if_pos (length_filter_ne_eq_iff.mpr hmiss)]
      rfl
    · simp only [perform, if_neg (length_filter_ne_eq_iff.not.mpr hmiss)]
      have hhit : ∃ u ∈ rows, u.id = id := by simpa using hmiss
      obtain ⟨before, u, after, rfl, rfl, hothers⟩ := exists_row hn hhit
      exact ⟨before, u, after, rfl, filter_ne_eq hothers, rfl, hothers⟩
  | get conditions page => rfl

theorem makes_repository {s : MemoryStore} (hn : (s.rows.map (·.id)).Nodup) (a : Attempt) :
    a.Makes (repository a s).result s.rows (repository a s).state.rows := by
  have hkept (result : Option (Except RepositoryError Reply))
      (hresult : ∀ reply, result ≠ some (.ok reply)) : a.Makes result s.rows s.rows := by
    unfold Attempt.Makes
    split
    all_goals first | rfl | exact absurd rfl (hresult _)
  unfold repository
  dsimp only
  split
  · exact hkept none (by simp)
  · split
    · exact hkept _ (by simp)
    · have hmakes := makes_perform hn a
      split at hmakes
      · rename_i hperform
        simpa only [hperform] using hmakes
      · rename_i hperform
        simpa only [hperform] using hmakes

theorem awaited_of_result {s : MemoryStore} {a : Attempt} {r : Except RepositoryError Reply}
    (h : (repository a s).result = some r) : a.awaited = true := by
  cases hwaits : a.awaited with
  | false => simp [repository, hwaits] at h
  | true => rfl

/-- What happens to a store: an attempt is made, or it is switched whether it can be reached and
whether it rejects. -/
inductive Turn
  | attempt (a : Attempt)
  | switch (reachable failing : Bool)

def after (s : MemoryStore) : Turn → MemoryStore
  | .attempt a => (repository a s).state
  | .switch reachable failing => { s with reachable, failing }

def course (s : MemoryStore) (run : List Turn) : MemoryStore := run.foldl after s

/-- The identifier of the account that is made. -/
def Turn.made? : Turn → Option String
  | .attempt a => a.making?.map (·.id)
  | .switch .. => none

/-- The time that is written into a row. -/
def Turn.time? : Turn → Option Time.Timestamp
  | .attempt a =>
    match a.command with
    | .create _ | .update .. => if a.awaited then some a.draw.now else none
    | .delete _ | .get .. => none
  | .switch .. => none

/-- Rows in good order: every account has an identifier of its own, none was changed before it was
made, and older accounts stand before younger ones. -/
structure Tidy (rows : List User) : Prop where
  named : ∀ u ∈ rows, u.id ≠ ""
  distinct : (rows.map (·.id)).Nodup
  dated : ∀ u ∈ rows, u.createdAt ≤ u.updatedAt
  ordered : rows.Pairwise (·.createdAt ≤ ·.createdAt)

/-- Rows may be followed by a run: new accounts get identifiers of their own, and time does not go
back. -/
structure Precedes (rows : List User) (run : List Turn) : Prop where
  named : ∀ id ∈ run.filterMap Turn.made?, id ≠ ""
  distinct : (rows.map (·.id) ++ run.filterMap Turn.made?).Nodup
  past : ∀ u ∈ rows, ∀ t ∈ run.filterMap Turn.time?, u.createdAt ≤ t
  clock : (run.filterMap Turn.time?).Pairwise (· ≤ ·)

section

variable {rows changed : List User} {run : List Turn} {turn : Turn} {a : Attempt}

/-- Rows that keep their identifiers and the times of their making, or are fewer. -/
theorem Precedes.of_sublist (h : Precedes rows (turn :: run))
    (hids : (changed.map (·.id)).Sublist (rows.map (·.id)))
    (htimes : (changed.map (·.createdAt)).Sublist (rows.map (·.createdAt))) :
    Precedes changed run := by
  have hmade : (run.filterMap Turn.made?).Sublist ((turn :: run).filterMap Turn.made?) :=
    (List.sublist_cons_self turn run).filterMap _
  have htime : (run.filterMap Turn.time?).Sublist ((turn :: run).filterMap Turn.time?) :=
    (List.sublist_cons_self turn run).filterMap _
  refine ⟨fun id hid => h.named id (hmade.subset hid), h.distinct.sublist (hids.append hmade), ?_,
    h.clock.sublist htime⟩
  intro u hu t ht
  obtain ⟨v, hv, hsame⟩ := List.mem_map.mp (htimes.subset (List.mem_map_of_mem hu))
  exact hsame ▸ h.past v hv t (htime.subset ht)

theorem Tidy.of_sublist (h : Tidy rows) (hsub : changed.Sublist rows) : Tidy changed where
  named u hu := h.named u (hsub.subset hu)
  distinct := h.distinct.sublist (hsub.map _)
  dated u hu := h.dated u (hsub.subset hu)
  ordered := h.ordered.sublist hsub

/-- A new account stands behind all others, with an identifier that none of them has. -/
theorem Tidy.create (h : Tidy rows) {profile : Profile} (hcommand : a.command = .create profile)
    (hwaits : a.awaited = true) (hp : Precedes rows (.attempt a :: run)) :
    let u : User := ⟨a.draw.id, profile, a.draw.now, a.draw.now⟩
    Tidy (rows ++ [u]) ∧ Precedes (rows ++ [u]) run := by
  intro u
  have hmade : Turn.made? (.attempt a) = some u.id := by
    simp [Turn.made?, Attempt.making?, hcommand, hwaits, u]
  have htime : Turn.time? (.attempt a) = some u.createdAt := by
    simp [Turn.time?, hcommand, hwaits, u]
  obtain ⟨hnamed, hdistinct, hpast, hclock⟩ := hp
  simp only [List.filterMap_cons_some hmade] at hnamed hdistinct
  simp only [List.filterMap_cons_some htime] at hpast hclock
  obtain ⟨hnext, hclock⟩ := List.pairwise_cons.mp hclock
  have hids : ((rows ++ [u]).map (·.id) ++ run.filterMap Turn.made?).Nodup := by
    simpa using hdistinct
  constructor
  · refine ⟨?_, hids.sublist (List.sublist_append_left _ _), ?_, ?_⟩
    · exact List.forall_mem_append.mpr ⟨h.named, by simpa using hnamed _ List.mem_cons_self⟩
    · exact List.forall_mem_append.mpr ⟨h.dated, by simpa using Time.Timestamp.le_refl _⟩
    · refine List.pairwise_append.mpr ⟨h.ordered, List.pairwise_singleton _ _, fun v hv w hw => ?_⟩
      rw [List.mem_singleton.mp hw]
      exact hpast v hv _ List.mem_cons_self
  · refine ⟨fun id hid => hnamed id (List.mem_cons_of_mem _ hid), hids, ?_, hclock⟩
    have hrows : ∀ v ∈ rows, ∀ t ∈ run.filterMap Turn.time?, v.createdAt ≤ t :=
      fun v hv t ht => hpast v hv t (List.mem_cons_of_mem _ ht)
    exact List.forall_mem_append.mpr ⟨hrows, by simpa using hnext⟩

theorem forall_mem_replace {P : User → Prop} {before after : List User} {u v : User}
    (h : ∀ w ∈ before ++ u :: after, P w) (huv : P u → P v) : ∀ w ∈ before ++ v :: after, P w := by
  obtain ⟨hbefore, hrest⟩ := List.forall_mem_append.mp h
  obtain ⟨hu, hafter⟩ := List.forall_mem_cons.mp hrest
  exact List.forall_mem_append.mpr ⟨hbefore, List.forall_mem_cons.mpr ⟨huv hu, hafter⟩⟩

/-- Of a row that is changed only the time of its last change says when that was. -/
theorem Tidy.replace {before after : List User} {u v : User} (h : Tidy (before ++ u :: after))
    (hid : v.id = u.id) (hmade : v.createdAt = u.createdAt) (hdated : u.createdAt ≤ v.updatedAt) :
    Tidy (before ++ v :: after) := by
  have hids : (before ++ v :: after).map (·.id) = (before ++ u :: after).map (·.id) := by
    simp [hid]
  have htimes : (before ++ v :: after).map (·.createdAt) =
      (before ++ u :: after).map (·.createdAt) := by simp [hmade]
  refine ⟨forall_mem_replace h.named fun hu => hid ▸ hu, hids ▸ h.distinct,
    forall_mem_replace h.dated fun _ => hmade ▸ hdated, ?_⟩
  have hordered := List.pairwise_map.mpr h.ordered
  rw [← htimes] at hordered
  exact List.pairwise_map.mp hordered

/-- What an attempt makes of rows in good order is in good order. -/
theorem Tidy.makes (h : Tidy rows) {result : Option (Except RepositoryError Reply)}
    (hmakes : a.Makes result rows changed) (hwaits : ∀ r, result = some r → a.awaited = true)
    (hp : Precedes rows (.attempt a :: run)) : Tidy changed ∧ Precedes changed run := by
  unfold Attempt.Makes at hmakes
  split at hmakes
  case h_1 profile reply hcommand =>
    obtain rfl := hmakes
    exact h.create hcommand (hwaits _ rfl) hp
  case h_2 id changes reply hcommand =>
    obtain ⟨before, u, v, after, rfl, rfl, -, -, hid, hmade, hupdated, -⟩ := hmakes
    have htime : Turn.time? (.attempt a) = some v.updatedAt := by
      simp [Turn.time?, hcommand, hwaits _ rfl, hupdated]
    have hdated : u.createdAt ≤ v.updatedAt := by
      refine hp.past u (List.mem_append_right _ List.mem_cons_self) _ ?_
      rw [List.filterMap_cons_some htime]
      exact List.mem_cons_self
    refine ⟨h.replace hid hmade hdated, hp.of_sublist ?_ ?_⟩
    · simp [hid]
    · simp [hmade]
  case h_3 id reply hcommand =>
    obtain ⟨before, u, after, rfl, rfl, -⟩ := hmakes
    have hsub : (before ++ after).Sublist (before ++ u :: after) :=
      (List.Sublist.refl before).append (List.sublist_cons_self u after)
    exact ⟨h.of_sublist hsub, hp.of_sublist (hsub.map _) (hsub.map _)⟩
  case h_4 =>
    obtain rfl := hmakes
    exact ⟨h, hp.of_sublist (.refl _) (.refl _)⟩

end

theorem Tidy.after {s : MemoryStore} {turn : Turn} {run : List Turn} (h : Tidy s.rows)
    (hp : Precedes s.rows (turn :: run)) :
    Tidy (s.after turn).rows ∧ Precedes (s.after turn).rows run := by
  cases turn with
  | attempt a =>
    exact h.makes (makes_repository h.distinct a) (fun _ => awaited_of_result) hp
  | switch reachable failing => exact ⟨h, hp.of_sublist (.refl _) (.refl _)⟩

theorem Tidy.course {s : MemoryStore} {run : List Turn} (h : Tidy s.rows)
    (hp : Precedes s.rows run) : Tidy (s.course run).rows := by
  induction run generalizing s with
  | nil => exact h
  | cons turn run ih =>
    obtain ⟨h', hp'⟩ := h.after hp
    exact ih h' hp'

/-- After any run on a store that is empty at first, the rows are in good order. Whatever is attempted
next, a change that succeeds replaces the one row with its identifier and keeps the identifier, the
time at which the account was made and all attributes but those supplied, a removal that succeeds
takes one row out, and the rows stay as they are unless an account is made. -/
theorem rows_in_order {s : MemoryStore} (hs : s.rows = []) (run : List Turn)
    (hnamed : ∀ id ∈ run.filterMap Turn.made?, id ≠ "")
    (hfresh : (run.filterMap Turn.made?).Nodup)
    (hclock : (run.filterMap Turn.time?).Pairwise (· ≤ ·)) :
    let t := s.course run
    Tidy t.rows ∧
      ∀ a : Attempt, a.Makes (repository a t).result t.rows (repository a t).state.rows := by
  intro t
  have htidy : Tidy s.rows := by
    rw [hs]
    exact ⟨by simp, by simp, by simp, .nil⟩
  have hp : Precedes s.rows run := by
    rw [hs]
    exact ⟨hnamed, hfresh, by simp, hclock⟩
  have hcourse : Tidy t.rows := htidy.course hp
  exact ⟨hcourse, makes_repository hcourse.distinct⟩

/-- Two accounts are made at one instant, and one while the store rejects. A change of the first is
written later. -/
def halfRejected : List Turn :=
  [.attempt { draw := ⟨"b", ⟨10, 0, by decide⟩⟩, command := .create { nickname := "Ada" } },
    .attempt { draw := ⟨"a", ⟨10, 0, by decide⟩⟩, command := .create { nickname := "Bob" } },
    .switch true true,
    .attempt { draw := ⟨"c", ⟨20, 0, by decide⟩⟩, command := .create {} },
    .switch true false]

theorem rows_in_order_of_half_rejected :
    let t := course {} halfRejected
    let a : Attempt :=
      { draw := ⟨"x", ⟨30, 0, by decide⟩⟩, command := .update "b" { email := "b@c" } }
    (∀ id ∈ halfRejected.filterMap Turn.made?, id ≠ "") ∧
      (halfRejected.filterMap Turn.made?).Nodup ∧
      (halfRejected.filterMap Turn.time?).Pairwise (· ≤ ·) ∧
      t.rows.map (·.id) = ["b", "a"] ∧ Tidy t.rows ∧ (repository a t).result = some (.ok .done) ∧
      a.Makes (repository a t).result t.rows (repository a t).state.rows := by
  intro t a
  have hnamed : ∀ id ∈ halfRejected.filterMap Turn.made?, id ≠ "" := by decide
  have hfresh : (halfRejected.filterMap Turn.made?).Nodup := by decide
  have hclock : (halfRejected.filterMap Turn.time?).Pairwise (· ≤ ·) := by decide
  obtain ⟨htidy, hmakes⟩ := rows_in_order (s := {}) rfl halfRejected hnamed hfresh hclock
  exact ⟨hnamed, hfresh, hclock, by decide, htidy, by decide, hmakes a⟩

end MemoryStore

end Roster
