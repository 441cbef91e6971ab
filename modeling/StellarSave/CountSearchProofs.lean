import Mathlib
import StellarSave.RankingProofs
import StellarSave.SearchProofs

/-! # Search by member count — what a full page leaves unread

    `search_groups` says that for a member-count sort it collects all matches
    first.  Its scan stops where the page is full, as for the other orders, and
    `sort_by_member_count` sorts what was collected until then. -/

namespace SaveCountSearch

open HostProg Footprint TokenLedger SaveData SaveMembership SaveView SaveLayout SaveStatus
open SaveCall SaveRoster SaveRotation SaveSearch Ranking Typing

/-! ## The sort -/

/-- The order of a member-count sort. -/
def Ranked (descending : Bool) (a b : Group) : Prop :=
  if descending = true then b.memberCount ≤ a.memberCount else a.memberCount ≤ b.memberCount

instance (descending : Bool) (a b : Group) : Decidable (Ranked descending a b) :=
  inferInstanceAs (Decidable (if descending = true then _ else _))

/-- Which of two groups `sort_by_member_count` puts first. -/
def before (descending : Bool) (a b : Group) : Bool :=
  if descending = true then decide (a.memberCount > b.memberCount)
  else decide (a.memberCount < b.memberCount)

/-- To rank below is transitive, either way round. -/
theorem Ranked.trans {descending : Bool} {a b c : Group} (hab : Ranked descending a b)
    (hbc : Ranked descending b c) : Ranked descending a c := by
  cases descending with
  | true => exact Nat.le_trans hbc hab
  | false => exact Nat.le_trans hab hbc

/-- What the code puts before ranks before. -/
theorem ranked_of_before {descending : Bool} {a b : Group} (h : before descending a b = true) :
    Ranked descending a b := by
  cases descending with
  | true => exact Nat.le_of_lt (of_decide_eq_true h)
  | false => exact Nat.le_of_lt (of_decide_eq_true h)

/-- What it does not, ranks behind: counts are compared as they are. -/
theorem ranked_of_not_before {descending : Bool} {a b : Group} (h : before descending a b = false) :
    Ranked descending b a := by
  cases descending with
  | true => exact Nat.le_of_not_lt (of_decide_eq_false h)
  | false => exact Nat.le_of_not_lt (of_decide_eq_false h)

/-- An insertion loses nobody. -/
theorem insertBefore_perm (before : Group → Group → Bool) (item : Group) (sorted : List Group) :
    (insertBefore before item sorted).Perm (item :: sorted) := by
  induction sorted with
  | nil => exact List.Perm.refl _
  | cons grp rest ih =>
      rw [insertBefore]
      split
      · exact List.Perm.refl _
      · exact (ih.cons grp).trans (List.Perm.swap item grp rest)

/-- And keeps the ranks. -/
theorem insertBefore_ranked {descending : Bool} (item : Group) {sorted : List Group}
    (h : sorted.Pairwise (Ranked descending)) :
    (insertBefore (before descending) item sorted).Pairwise (Ranked descending) := by
  induction sorted with
  | nil => exact List.pairwise_singleton _ _
  | cons grp rest ih =>
      obtain ⟨hgrp, hrest⟩ := List.pairwise_cons.mp h
      rw [insertBefore]
      split
      · rename_i hbefore
        have hitem : Ranked descending item grp := ranked_of_before hbefore
        refine List.pairwise_cons.mpr ⟨?_, h⟩
        intro other hother
        obtain rfl | hother := List.mem_cons.mp hother
        · exact hitem
        · exact hitem.trans (hgrp other hother)
      · rename_i hbefore
        refine List.pairwise_cons.mpr ⟨?_, ih hrest⟩
        intro other hother
        obtain rfl | hother := List.mem_cons.mp ((insertBefore_perm _ item rest).mem_iff.mp hother)
        · exact ranked_of_not_before (Bool.eq_false_iff.mpr hbefore)
        · exact hgrp other hother

/-- What the loop of `sort_by_member_count` has put in order so far. -/
theorem fold_ranked {descending : Bool} (groups : List Group) {sorted : List Group}
    (h : sorted.Pairwise (Ranked descending)) :
    (groups.foldl (fun sorted item => insertBefore (before descending) item sorted) sorted).Pairwise
        (Ranked descending) ∧
      (groups.foldl (fun sorted item => insertBefore (before descending) item sorted) sorted).Perm
        (groups ++ sorted) := by
  induction groups generalizing sorted with
  | nil => exact ⟨h, List.Perm.refl _⟩
  | cons item groups ih =>
      obtain ⟨hranked, hperm⟩ := ih (insertBefore_ranked item h)
      refine ⟨hranked, hperm.trans ?_⟩
      exact ((insertBefore_perm _ item sorted).append_left groups).trans List.perm_middle

/-- So the sort ranks exactly the groups it was given. -/
theorem sortByMemberCount_ranked (groups : List Group) (descending : Bool) :
    (sortByMemberCount groups descending).groups.Pairwise (Ranked descending) ∧
      (sortByMemberCount groups descending).groups.Perm groups := by
  have hnil : ([] : List Group).Pairwise (Ranked descending) := List.Pairwise.nil
  have hfold := fold_ranked groups hnil
  rw [List.append_nil] at hfold
  exact hfold

/-! ## The scan -/

/-- The groups that the scan can reach, in its order. -/
def reached (s : State) (params : SearchParams) : List Group :=
  (left s params params.cursor).filterMap (wanted s params)

/-- The groups newer than the cursor. -/
def passed (s : State) (params : SearchParams) : List Group :=
  ((downFrom (lastId s)).filter fun id => params.cursor ≠ 0 ∧ params.cursor < id).filterMap (wanted s params)

/-- The answer holds the groups with the most members, or the fewest, of all
    that match: a page of them, in order. -/
def Global (env : Env) (s : State) (params : SearchParams) (descending : Bool) : Prop :=
  ∃ r t, searchGroups params env s = .ok r t ∧ ∃ ids : List Nat, ids.Nodup ∧
    (∀ id, id ∈ ids ↔ ∃ grp, groupAt s id = some grp ∧ archivedAt s id = false
      ∧ matchesFilters grp params = true) ∧
    TopOf (Ranked descending) (pageSize params) (ids.filterMap (groupAt s)) r.groups

/-- No matching group outside of the page, newer than the cursor or older than
    the page, has more members than one on it, or fewer; and the page is full
    where one is newer than the cursor. -/
def NonePassed (s : State) (params : SearchParams) (descending : Bool) : Prop :=
  (passed s params ≠ [] → pageSize params ≤ (reached s params).length) ∧
    ∀ a ∈ (reached s params).take (pageSize params),
      ∀ b ∈ passed s params ++ (reached s params).drop (pageSize params), Ranked descending a b

section

variable {env : Env} {s : State} {params : SearchParams} {descending : Bool}

/-- A downward scan collects the first matching groups, as many as there is room for. -/
theorem search_takes (hs : GroupStorage s) (hsort : params.sort ≠ .createdAsc) {limit : Nat} {ids : List Nat}
    (hids : 0 ∉ ids) (found : SearchResult) :
    ∃ r, foldEach (searchAt params limit) found ids env s = .ok r s ∧
      r.groups = found.groups ++ (ids.filterMap (wanted s params)).take (limit - found.groups.length) := by
  induction ids generalizing found with
  | nil => exact ⟨found, rfl, by simp⟩
  | cons id ids ih =>
      obtain ⟨-, hrest⟩ := not_or.mp fun h => hids (List.mem_cons.mpr h)
      by_cases hfull : limit ≤ found.groups.length
      · refine ⟨_, search_full hfull hids, ?_⟩
        rw [Nat.sub_eq_zero_of_le hfull, List.take_zero, List.append_nil]
      · have hat := (@searchAt_ok env s s params limit found _ id hs (Nat.lt_of_not_le hfull)).mpr
          ⟨fun hasc => absurd hasc hsort, rfl, rfl⟩
        obtain ⟨r, hr, hgroups⟩ := ih hrest ⟨found.groups ++ (wanted s params id).toList, found.nextCursor,
          saturatingU32 (found.scanned + 1)⟩
        refine ⟨r, by rw [foldEach_cons, bind_of_ok hat, hr], ?_⟩
        rw [hgroups]
        cases hid : wanted s params id with
        | none => simp [hid]
        | some grp =>
            have hroom : limit - found.groups.length = limit - (found.groups.length + 1) + 1 := by omega
            rw [List.filterMap_cons_some hid, hroom, List.take_succ_cons]
            simp

/-- A scan that is to be sorted by member count goes down from the newest id. -/
theorem not_createdAsc
    (hsort : params.sort = if descending = true then .memberCountDesc else .memberCountAsc) :
    params.sort ≠ .createdAsc := by
  intro hasc
  rw [hasc] at hsort
  cases descending with
  | true => simp at hsort
  | false => simp at hsort

/-- **WHAT IS SORTED** is what the scan collected. -/
theorem searchGroups_ranked (env : Env) (hs : GroupStorage s)
    (hsort : params.sort = if descending = true then .memberCountDesc else .memberCountAsc) :
    searchGroups params env s
      = .ok (sortByMemberCount ((reached s params).take (pageSize params)) descending) s := by
  have hdown : params.sort ≠ .createdAsc := not_createdAsc hsort
  have hlast : getTotalGroups env s = .ok (lastId s) s := by
    rw [getTotalGroups, getD_bind_ok, pure_ok]
    exact ⟨hs.counter, rfl, rfl⟩
  -- the page is filled from the newest groups, and then sorted
  rw [searchGroups, bind_of_ok hlast, reached]
  by_cases hzero : lastId s = 0
  · rw [if_pos hzero, left, if_pos hzero, List.filterMap_nil, List.take_nil]
    rfl
  · have htakes : ∃ r : SearchResult, foldEach (searchAt params (pageSize params)) ⟨[], 0, 0⟩
        (left s params params.cursor) env s = .ok r s ∧
        r.groups = [] ++ ((left s params params.cursor).filterMap (wanted s params)).take
          (pageSize params - 0) := search_takes hs hdown left_pos ⟨[], 0, 0⟩
    obtain ⟨r, hr, hgroups⟩ := htakes
    rw [List.nil_append, Nat.sub_zero] at hgroups
    rw [if_neg hzero]
    rw [left, if_neg hzero, idsFrom] at hr
    rw [← hgroups]
    dsimp only
    rw [pageSize] at hr
    refine (bind_of_ok hr).trans ?_
    rw [hsort]
    cases descending <;> rfl

/-! ## All that match -/

/-- The ids of the matching groups, newest first. -/
def matchingIds (s : State) (params : SearchParams) : List Nat :=
  (downFrom (lastId s)).filter fun id => (wanted s params id).isSome

/-- The ids down to a cursor, and those from there. -/
theorem downFrom_split {c n : Nat} (h : c ≤ n) :
    downFrom n = (downFrom n).filter (fun id => c < id) ++ downFrom c := by
  induction n, h using Nat.le_induction with
  | base =>
      have hnone : (downFrom c).filter (fun id => c < id) = [] := by
        rw [List.filter_eq_nil_iff]
        intro id hid
        have hle := (mem_downFrom.mp hid).2
        simpa using hle
      rw [hnone, List.nil_append]
  | succ n hle ih =>
      rw [downFrom_succ, List.filter_cons_of_pos (by simpa using Nat.lt_succ_of_le hle), List.cons_append, ← ih]

/-- Past the last id there is nothing to reach. -/
theorem wanted_above (hs : GroupStorage s) {c : Nat} (h : lastId s ≤ c) :
    (downFrom c).filterMap (wanted s params) = (downFrom (lastId s)).filterMap (wanted s params) := by
  induction c, h using Nat.le_induction with
  | base => rfl
  | succ c hle ih =>
      have hnone : wanted s params (c + 1) = none := by
        rw [Option.eq_none_iff_forall_ne_some]
        intro grp hgrp
        have hbound := (hs.issued (c + 1) grp (wanted_eq_some.mp hgrp).1).2
        omega
      rw [downFrom_succ, List.filterMap_cons_none hnone, ih]

/-- The groups that match are those wanted, by id. -/
theorem filterMap_matchingIds :
    (matchingIds s params).filterMap (groupAt s) = (downFrom (lastId s)).filterMap (wanted s params) := by
  rw [matchingIds, List.filterMap_filter]
  refine List.filterMap_congr fun id _ => ?_
  cases hid : wanted s params id with
  | none => rfl
  | some grp => exact (wanted_eq_some.mp hid).1

/-- What matches is newer than the cursor or within reach. -/
theorem matching_split (hs : GroupStorage s) (hsort : params.sort ≠ .createdAsc) :
    (matchingIds s params).filterMap (groupAt s) = passed s params ++ reached s params := by
  rw [filterMap_matchingIds, passed, reached, left]
  by_cases hzero : lastId s = 0
  · rw [if_pos hzero, hzero]
    rfl
  · rw [if_neg hzero, idsFrom, if_neg hsort]
    by_cases hstart : params.cursor = 0
    · simp [hstart]
    · simp only [hstart, if_false, ne_eq, not_false_eq_true, true_and]
      rcases Nat.le_total params.cursor (lastId s) with hle | hle
      · rw [← List.filterMap_append, ← downFrom_split hle]
      · -- a cursor from the last id on passes nothing over
        have hnone : (downFrom (lastId s)).filter (fun id => params.cursor < id) = [] := by
          rw [List.filter_eq_nil_iff]
          intro id hid
          have hlast := (mem_downFrom.mp hid).2
          simpa using Nat.le_trans hlast hle
        rw [hnone, wanted_above hs hle]
        rfl

/-- An id matches if its group is there, not archived, and passes the filters. -/
theorem mem_matchingIds (hs : GroupStorage s) (id : Nat) :
    id ∈ matchingIds s params ↔ ∃ grp, groupAt s id = some grp ∧ archivedAt s id = false
      ∧ matchesFilters grp params = true := by
  rw [matchingIds, List.mem_filter, mem_downFrom, Option.isSome_iff_exists]
  constructor
  · rintro ⟨-, grp, hgrp⟩
    exact ⟨grp, wanted_eq_some.mp hgrp⟩
  · rintro ⟨grp, hgrp⟩
    exact ⟨hs.issued id grp hgrp.1, grp, wanted_eq_some.mpr hgrp⟩

/-- **ALL MATCHES**, exactly when the page already holds the first of them. -/
theorem global_iff (hs : GroupStorage s)
    (hsort : params.sort = if descending = true then .memberCountDesc else .memberCountAsc) :
    Global env s params descending ↔ NonePassed s params descending := by
  have hdown : params.sort ≠ .createdAsc := not_createdAsc hsort
  obtain ⟨hranked, hperm⟩ := sortByMemberCount_ranked ((reached s params).take (pageSize params)) descending
  have hnodup : (matchingIds s params).Nodup := (nodup_downFrom _).filter _
  have hall : ((matchingIds s params).filterMap (groupAt s)).Perm ((reached s params).take (pageSize params)
      ++ (passed s params ++ (reached s params).drop (pageSize params))) := by
    have hmoved : (passed s params ++ ((reached s params).take (pageSize params)
        ++ (reached s params).drop (pageSize params))).Perm ((reached s params).take (pageSize params)
        ++ (passed s params ++ (reached s params).drop (pageSize params))) := by
      rw [← List.append_assoc, ← List.append_assoc]
      exact List.perm_append_comm.append_right _
    rwa [List.take_append_drop, ← matching_split hs hdown] at hmoved
  have htop : TopOf (Ranked descending) (pageSize params) ((matchingIds s params).filterMap (groupAt s))
      (sortByMemberCount ((reached s params).take (pageSize params)) descending).groups
        ↔ NonePassed s params descending := by
    rw [topOf_iff hranked hperm hall, matching_split hs hdown, NonePassed, List.length_append, List.length_take]
    refine and_congr_left fun _ => ?_
    rw [← List.length_pos_iff]
    omega
  -- whatever list of the matching ids is given, it is this one in another order
  rw [← htop]
  constructor
  · rintro ⟨r, t, hr, ids, hids, hmem, hbest⟩
    obtain ⟨rfl, -⟩ := Outcome.ok.inj ((searchGroups_ranked env hs hsort).symm.trans hr)
    have hsame : ids.Perm (matchingIds s params) :=
      (List.perm_ext_iff_of_nodup hids hnodup).mpr fun id => (hmem id).trans (mem_matchingIds hs id).symm
    exact hbest.of_perm (hsame.filterMap _)
  · intro hbest
    exact ⟨_, _, searchGroups_ranked env hs hsort, matchingIds s params, hnodup, mem_matchingIds hs, hbest⟩

end

/-- **SORTED BY MEMBER COUNT**: the sort puts any list in order; and a search
    answers for all the groups that match exactly when none is passed over. -/
theorem count_search_global_iff {env : Env} {s : State} {params : SearchParams} {descending : Bool}
    (hs : GroupStorage s)
    (hsort : params.sort = if descending = true then .memberCountDesc else .memberCountAsc) :
    (∀ groups down, (sortByMemberCount groups down).groups.Pairwise (Ranked down) ∧
        (sortByMemberCount groups down).groups.Perm groups) ∧ Global env s params descending ↔
      NonePassed s params descending := by
  rw [and_iff_right sortByMemberCount_ranked]
  exact global_iff hs hsort

/-! ## A large group behind a small one -/

/-- One group, the one with most members or the one with fewest. -/
def most : SearchParams := ⟨none, none, none, none, none, 0, 1, .memberCountDesc⟩
def fewest : SearchParams := { most with sort := .memberCountAsc }

/-- An old group with three members and a new one with two. -/
def oldGroup : Group := { openGroup with memberCount := 3 }
def newGroup : Group := { openGroup with id := 2, memberCount := 2 }

def unequal : State :=
  ((fundedOpen.set (.grp 1) (Codec.encode oldGroup)).set (.grp 2) (Codec.encode newGroup)).set
    .cntNextG (Codec.encode (U64.mk 2))

/-- The entries of the example are of their types. -/
theorem unequal_obeys : Obeys layout unequal := by
  refine Obeys.set (Obeys.set (Obeys.set fundedOpen_obeys ?_) ?_) ?_
  · rfl
  · rfl
  · rfl

/-- It can be searched. -/
theorem unequal_storage : GroupStorage unequal where
  counter := typed_of_obeys unequal_obeys
  record _ := typed_of_obeys unequal_obeys
  archived _ := typed_of_obeys unequal_obeys
  issued id grp hgrp := by
    have hlast : lastId unequal = 2 := rfl
    rw [hlast]
    by_cases hold : id = 1
    · omega
    · by_cases hnew : id = 2
      · omega
      · have hnone : groupAt unequal id = none := by
          simp [unequal, fundedOpen, groupAt, hold, hnew, deployed, readAt]
        rw [hnone] at hgrp
        cases hgrp

/-- Both its groups are reached, whichever way it is sorted. -/
theorem unequal_reached (params : SearchParams) (h : params = most ∨ params = fewest) :
    reached unequal params = [newGroup, oldGroup] ∧ passed unequal params = [] := by
  obtain rfl | rfl := h
  · exact ⟨rfl, rfl⟩
  · exact ⟨rfl, rfl⟩

/-- Sorted by the fewest members its pages are in the order of the whole. -/
theorem unequal_fewest :
    GroupStorage unequal ∧ (∀ groups down, (sortByMemberCount groups down).groups.Pairwise (Ranked down) ∧
      (sortByMemberCount groups down).groups.Perm groups) ∧ Global trioEnv unequal fewest false := by
  refine ⟨unequal_storage, (count_search_global_iff unequal_storage rfl).mpr ?_⟩
  obtain ⟨hreached, hpassed⟩ := unequal_reached fewest (Or.inr rfl)
  rw [NonePassed, hreached, hpassed]
  decide

/-- **THE LARGEST GROUP IS NOT FOUND** where a newer one fills the page. -/
theorem unequal_most : GroupStorage unequal ∧ ¬ Global trioEnv unequal most true := by
  refine ⟨unequal_storage, ?_⟩
  rw [global_iff unequal_storage rfl]
  obtain ⟨hreached, hpassed⟩ := unequal_reached most (Or.inl rfl)
  rw [NonePassed, hreached, hpassed]
  decide

end SaveCountSearch
