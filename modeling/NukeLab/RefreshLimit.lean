import Mathlib.Data.List.Perm.Subperm
import NukeLab.RefreshRotation

namespace NukeLab.RefreshLimit

open Machine Interleaving Records State Sessions SessionRevocation RefreshRotation
open Administration hiding Event handle step login

def OfUser (s : Store) (userId : Uuid) (rt : RefreshToken) : Prop := rt.userId = userId ∧ Live s.realm rt

instance (s : Store) (userId : Uuid) : DecidablePred (OfUser s userId) := fun _ => inferInstanceAs (Decidable (_ ∧ _))

/-- What an issue that commits leaves: no more live tokens than the cap, none
evicted that is younger than one that stays, and its own token. -/
structure Limits (s : Store) (issue : Issue) (u : Store) (id : Uuid) : Prop where
  cap : u.rows.countP (OfUser u issue.user.id) ≤ maxRefreshTokensPerUser
  oldest : ∀ row ∈ s.rows, row.revokedAt = none → some row.id ≠ issue.presentedId → row ∉ u.rows →
    ∀ kept ∈ u.rows, kept.userId = issue.user.id → kept.revokedAt = none → u.createdAt row.id ≤ u.createdAt kept.id
  own : ∃ rt ∈ u.rows, rt.id = id ∧ rt.userId = issue.user.id ∧ rt.revokedAt = none

instance (s : Store) (issue : Issue) (u : Store) (id : Uuid) : Decidable (Limits s issue u id) :=
  decidable_of_iff
    (u.rows.countP (OfUser u issue.user.id) ≤ maxRefreshTokensPerUser ∧
      (∀ row ∈ s.rows, ¬ (row.revokedAt = none ∧ some row.id ≠ issue.presentedId ∧ row ∉ u.rows) ∨
        ∀ kept ∈ u.rows, ¬ (kept.userId = issue.user.id ∧ kept.revokedAt = none) ∨
          u.createdAt row.id ≤ u.createdAt kept.id) ∧
      ∃ rt ∈ u.rows, rt.id = id ∧ rt.userId = issue.user.id ∧ rt.revokedAt = none) <| by
    simp only [← imp_iff_not_or, and_imp]
    exact ⟨fun h => ⟨h.1, h.2.1, h.2.2⟩, fun h => ⟨h.cap, h.oldest, h.own⟩⟩

def handed : Phase → Option Uuid
  | .succeeded _ id => some id
  | _ => none

def Limited (_ : Nat) (s : Store) (p : Phase) (u : Store) (q : Phase) : Prop :=
  ∀ issue ∈ pending p, ∀ id ∈ handed q, Limits s issue u id

instance (i : Nat) (s : Store) (p : Phase) (u : Store) (q : Phase) : Decidable (Limited i s p u q) :=
  inferInstanceAs (Decidable (∀ issue ∈ pending p, ∀ id ∈ handed q, _))

def issuedSince (s : Store) (issue : Issue) : Nat :=
  s.rows.countP fun rt => OfUser s issue.user.id rt ∧ some rt.id ≠ issue.presentedId ∧ rt.id ∉ issue.counted.map RefreshToken.id

/-- The tokens that other calls have issued to the user since an issue's count
fit in the room that it makes. -/
def Roomy (s : Store) (p : Phase) : Prop :=
  ∀ issue ∈ pending p,
    issuedSince s issue + min issue.counted.length (maxRefreshTokensPerUser - 1) < maxRefreshTokensPerUser

instance (s : Store) (p : Phase) : Decidable (Roomy s p) :=
  inferInstanceAs (Decidable (∀ issue ∈ pending p, _ < _))

variable {settings : AuthSettings} {s : Store} {issue : Issue}

theorem exists_cut (issue : Issue) :
    ∃ k, issue.toRevoke = issue.counted.take k ∧
      (issue.counted.drop k).length = min issue.counted.length (maxRefreshTokensPerUser - 1) := by
  by_cases h : issue.counted.length < maxRefreshTokensPerUser
  · refine ⟨0, if_pos h, ?_⟩
    rw [List.drop_zero]
    omega
  · refine ⟨_, if_neg h, ?_⟩
    rw [List.length_drop]
    omega

theorem kept_le (hs : Numbered s) (issue : Issue) :
    (s.rows.filter fun rt => rt.id ∉ issue.revokes ∧ rt.id ∈ issue.counted.map RefreshToken.id).length ≤
      min issue.counted.length (maxRefreshTokensPerUser - 1) := by
  obtain ⟨k, hcut, hlength⟩ := exists_cut issue
  have hsub : (s.rows.filter fun rt => rt.id ∉ issue.revokes ∧ rt.id ∈ issue.counted.map RefreshToken.id).map
      RefreshToken.id ⊆ (issue.counted.drop k).map RefreshToken.id := by
    intro id hid
    obtain ⟨rt, hrt, rfl⟩ := List.mem_map.mp hid
    obtain ⟨hkept, hcounted⟩ := of_decide_eq_true (List.mem_filter.mp hrt).2
    rw [← List.take_append_drop k issue.counted, List.map_append, List.mem_append] at hcounted
    refine hcounted.resolve_left fun hmem => hkept (List.mem_append_right _ ?_)
    rwa [hcut]
  have hnodup : ((s.rows.filter fun rt => rt.id ∉ issue.revokes ∧ rt.id ∈ issue.counted.map RefreshToken.id).map
      RefreshToken.id).Nodup := (List.filter_sublist.map _).nodup hs.unique
  have hle := (hnodup.subperm hsub).length_le
  rwa [List.length_map, List.length_map, hlength] at hle

theorem countP_revokeRows (at' : Instant) (ids : List Uuid) (rows : List RefreshToken) (userId : Uuid) :
    (revokeRows at' ids rows).countP (OfUser s userId) = rows.countP fun rt => rt.id ∉ ids ∧ OfUser s userId rt := by
  rw [revokeRows, List.countP_map]
  refine List.countP_congr fun rt _ => ?_
  rw [Function.comp_apply, decide_eq_true_iff, decide_eq_true_iff]
  by_cases hid : rt.id ∈ ids
  · simp [hid, OfUser, Live]
  · simp [hid]

/-- The user's live tokens that stay are those of the count that it keeps and
those issued since. -/
theorem stay_le (hs : Numbered s) (issue : Issue) :
    (s.rows.countP fun rt => rt.id ∉ issue.revokes ∧ OfUser s issue.user.id rt) ≤
      min issue.counted.length (maxRefreshTokensPerUser - 1) + issuedSince s issue := by
  rw [List.countP_eq_countP_filter_add s.rows _ fun rt => rt.id ∈ issue.counted.map RefreshToken.id]
  refine Nat.add_le_add ?_ ?_
  · refine le_trans ?_ (kept_le hs issue)
    rw [List.countP_filter, List.countP_eq_length_filter]
    refine List.Sublist.length_le (List.monotone_filter_right _ fun rt h => ?_)
    simp only [Bool.and_eq_true, decide_eq_true_eq] at h ⊢
    exact ⟨h.1.1, h.2⟩
  · rw [List.countP_filter]
    refine List.countP_mono_left fun rt _ h => ?_
    simp only [Bool.and_eq_true, decide_eq_true_eq, Bool.not_eq_true', decide_eq_false_iff_not] at h ⊢
    refine ⟨h.1.2, fun hpresented => h.1.1 (List.mem_append_left _ ?_), h.2⟩
    exact Option.mem_toList.mpr hpresented.symm

theorem cap_of_roomy (hs : Numbered s) (hroom : Roomy s (.issuing issue)) :
    (s.issue settings issue).rows.countP (OfUser (s.issue settings issue) issue.user.id) ≤ maxRefreshTokensPerUser := by
  have hstay := stay_le hs issue
  have hroom := hroom issue rfl
  have hold : (revokeRows issue.since issue.revokes s.rows).countP (OfUser (s.issue settings issue) issue.user.id) =
      s.rows.countP fun rt => rt.id ∉ issue.revokes ∧ OfUser s issue.user.id rt :=
    countP_revokeRows issue.since issue.revokes s.rows issue.user.id
  have hrows : (s.issue settings issue).rows = revokeRows issue.since issue.revokes s.rows ++ [_] := rfl
  rw [hrows, List.countP_append, hold, List.countP_singleton]
  split <;> omega

theorem evicted_of_gone {row : RefreshToken} (hrow : row ∈ s.rows) (hpresented : some row.id ≠ issue.presentedId)
    (hgone : row ∉ (s.issue settings issue).rows) : ∃ rt ∈ issue.toRevoke, rt.id = row.id := by
  by_contra hkept
  refine hgone (List.mem_append_left _ (List.mem_map.mpr ⟨row, hrow, if_neg fun hmem => ?_⟩))
  rcases List.mem_append.mp hmem with hown | hevicted
  · exact hpresented (Option.mem_toList.mp hown).symm
  · exact hkept (List.mem_map.mp hevicted)

theorem oldest_of_counted (hs : Numbered s) (hc : Counted s issue) {row kept : RefreshToken} (hrow : row ∈ s.rows)
    (hpresented : some row.id ≠ issue.presentedId) (hgone : row ∉ (s.issue settings issue).rows)
    (hkept : kept ∈ (s.issue settings issue).rows) (huser : kept.userId = issue.user.id) (hlive : kept.revokedAt = none) :
    (s.issue settings issue).createdAt row.id ≤ (s.issue settings issue).createdAt kept.id := by
  have hlater : Later s (s.issue settings issue) := Later.issue issue
  obtain ⟨evicted, hevicted, hid⟩ := evicted_of_gone hrow hpresented hgone
  obtain ⟨k, hcut, -⟩ := exists_cut issue
  have hcounted : evicted ∈ issue.counted := List.mem_of_mem_take (hcut ▸ hevicted)
  rw [hlater.createdAt row.id (hs.ids row hrow), ← hid]
  rcases List.mem_append.mp hkept with hold | hnew
  · obtain ⟨old, hmem, -, -, hrevoked, hsame⟩ := mem_revokeRows_iff hold
    obtain rfl := hsame hlive
    have hspared : old.id ∉ issue.revokes := fun hmem => hrevoked hmem hlive
    rw [hlater.createdAt old.id (hs.ids old hmem)]
    have hother : some old.id ≠ issue.presentedId := fun heq =>
      hspared (List.mem_append_left _ (Option.mem_toList.mpr heq.symm))
    rcases hc.rest old hmem huser hlive hother with hmem | hsince
    · -- Both were counted, and the one that stays comes after the cut.
      have hsorted := hc.sorted
      rw [← List.take_append_drop k issue.counted, List.mem_append] at hmem
      rw [← List.take_append_drop k issue.counted, List.pairwise_append] at hsorted
      refine hsorted.2.2 evicted (hcut ▸ hevicted) old (hmem.resolve_left fun htaken => hspared ?_)
      exact List.mem_append_right _ (List.mem_map_of_mem (hcut ▸ htaken))
    · exact (hc.before evicted hcounted).2.trans hsince
  · obtain rfl := List.mem_singleton.mp hnew
    have hcreated : (s.issue settings issue).createdAt (s.realm.nextId + 1) = s.realm.now := Function.update_self _ _ _
    rw [hcreated]
    exact (hc.before evicted hcounted).2.trans hc.since

theorem limited_turn {i : Nat} {p q : Phase} {order : List RefreshToken} {u : Store} (hs : Numbered s) (hp : Local i s p)
    (hroom : Roomy s p) (h : turn settings s order p = some (u, q)) : Limited i s p u q := by
  intro issue hissue id hid
  cases p with
  | issuing issue =>
      cases hissue
      rw [turn] at h
      split at h
      · cases h
        cases hid
        refine ⟨cap_of_roomy hs hroom, fun row hrow _ hpresented hgone kept hkept huser hlive => ?_, ?_⟩
        · exact oldest_of_counted hs hp.2 hrow hpresented hgone hkept huser hlive
        · exact ⟨_, List.mem_append_right _ (List.mem_singleton.mpr rfl), rfl, rfl, rfl⟩
      · cases h
        cases hid
  | _ => cases hissue

/-- Where what is issued beside an issue fits in the room that it makes, every
issue leaves no more live tokens than the cap, evicts the oldest and keeps its own. -/
theorem issues_limited (settings : AuthSettings) (site : Site) (now : Instant) (events : List RefreshRotation.Event)
    (h : AllSteps (step begin (advance settings)) (Before Roomy) (started site now) events) :
    AllSteps (step begin (advance settings)) (EveryTurn (advance settings) Limited) (started site now) events := by
  refine allSteps_everyTurn_of_before (fun _ s p order u q hs hp hroom h => ?_) (sound_run settings site now events) h
  exact limited_turn hs hp hroom h

section House

def tokens (n : Nat) : List RefreshToken :=
  (List.range n).map fun i => ⟨2 * i + 1, 1, day + defaultSettings.refreshLifetime, none, i⟩

def loginAlone (i : Nat) : List RefreshRotation.Event :=
  [.call (.login "ada" "lovelace"), .turn i [], .turn i (tokens i), .turn i []]

theorem issues_limited_in_turn :
    AllSteps (step begin (advance defaultSettings)) (EveryTurn (advance defaultSettings) Limited) (started house day)
      ((List.range 11).flatMap loginAlone) :=
  issues_limited defaultSettings house day _ (by decide +kernel)

/-- Two logins that both count ten tokens evict the same one, and leave eleven. -/
theorem eleven_tokens :
    ¬ ∀ (settings : AuthSettings) (site : Site) (now : Instant) (events : List RefreshRotation.Event),
      AllSteps (step begin (advance settings)) (EveryTurn (advance settings) Limited) (started site now) events := by
  intro h
  have hrun := h defaultSettings house day ((List.range 10).flatMap loginAlone ++
    [.call (.login "ada" "lovelace"), .call (.login "ada" "lovelace"), .turn 10 [], .turn 11 [],
      .turn 10 (tokens 10), .turn 11 (tokens 10), .turn 10 [], .turn 11 []])
  revert hrun
  decide +kernel

end House

end NukeLab.RefreshLimit
