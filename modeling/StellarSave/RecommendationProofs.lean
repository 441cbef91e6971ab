import StellarSave.Binary64Proofs

/-! # Recommendations — what similar savers joined

    `RecommendationEngine` (`recommendation.ts`).  The collaborative list is built in a
    map, one other user after another and one of their groups after another; what it
    amounts to is a sum of similarities for each group.

    The numbers are doubles: a similarity is the rounded quotient, and a sum is rounded
    at each step, in the order in which the other users are met.  No score is near the
    largest double, so none is infinite. -/

namespace Recommendation

open Binary64 (nearest)

variable {Id : Type} [DecidableEq Id]

inductive InteractionType where
  | view
  | join
  | contribute
  deriving DecidableEq, Repr

structure UserInteraction (Id : Type) where
  userId : Id
  groupId : Id
  interactionType : InteractionType
  deriving DecidableEq, Repr

structure Group (Id : Type) where
  id : Id
  contributionAmount : ℚ
  cycleDuration : ℚ
  tags : List Id
  deriving DecidableEq

structure UserPreference (Id : Type) where
  userId : Id
  minContribution : Option ℚ
  maxContribution : Option ℚ
  preferredDuration : Option ℚ
  tags : List Id
  deriving DecidableEq

/-- A recommendation: the group and its score. -/
abbrev Scored (Id : Type) := Id × ℚ

/-- `new Set`, in the order of insertion. -/
def newSet (xs : List Id) : List Id := xs.foldl (fun s x => if x ∈ s then s else s ++ [x]) []

/-- The sort of both lists, by `b.score - a.score`: a higher score first, and otherwise
    the order there was. -/
def byScore (rs : List (Scored Id)) : List (Scored Id) :=
  rs.insertionSort fun a b => nearest (b.2 - a.2) ≤ 0

/-- The groups a user has joined. -/
def joined (interactions : List (UserInteraction Id)) (userId : Id) : List Id :=
  newSet ((interactions.filter fun i => decide (i.userId = userId ∧ i.interactionType = .join)).map
    UserInteraction.groupId)

/-- The users there are, without one. -/
def otherUsers (interactions : List (UserInteraction Id)) (userId : Id) : List Id :=
  (newSet (interactions.map UserInteraction.userId)).filter fun id => decide (id ≠ userId)

/-- Jaccard similarity, as it is counted. -/
def similarity (userGroups otherGroups : List Id) : ℚ :=
  let intersection := newSet (userGroups.filter fun id => decide (id ∈ otherGroups))
  let union := newSet (userGroups ++ otherGroups)
  if union.length = 0 then 0 else nearest (intersection.length / union.length)

/-- `recommendations.get(groupId) || 0`. -/
def scoreOf (groupId : Id) (recommendations : List (Scored Id)) : ℚ :=
  ((recommendations.find? fun r => decide (r.1 = groupId)).map Prod.snd).getD 0

/-- `recommendations.set`. -/
def setScore (groupId : Id) (score : ℚ) (recommendations : List (Scored Id)) : List (Scored Id) :=
  if recommendations.any fun r => decide (r.1 = groupId) then
    recommendations.map fun r => if r.1 = groupId then (groupId, score) else r
  else recommendations ++ [(groupId, score)]

/-- One group of another user. -/
def addGroup (userGroups : List Id) (similarity : ℚ) (recommendations : List (Scored Id))
    (groupId : Id) : List (Scored Id) :=
  if groupId ∈ userGroups then recommendations
  else setScore groupId (nearest (scoreOf groupId recommendations + similarity)) recommendations

/-- Another user. -/
def addUser (interactions : List (UserInteraction Id)) (userGroups : List Id)
    (recommendations : List (Scored Id)) (otherId : Id) : List (Scored Id) :=
  let otherGroups := joined interactions otherId
  let similarity := similarity userGroups otherGroups
  if 0 < similarity then otherGroups.foldl (addGroup userGroups similarity) recommendations
  else recommendations

def getCollaborativeRecommendations (interactions : List (UserInteraction Id)) (userId : Id) :
    List (Scored Id) :=
  byScore ((otherUsers interactions userId).foldl (addUser interactions (joined interactions userId)) [])

/-- The score of a group by a preference; a zero is no preference. -/
def contentScore (pref : UserPreference Id) (group : Group Id) : ℚ :=
  let least := pref.minContribution.getD 0
  let most := pref.maxContribution.getD 0
  let duration := pref.preferredDuration.getD 0
  let matchingTags := group.tags.filter fun tag => decide (tag ∈ pref.tags)
  Binary64.sum [if least ≠ 0 ∧ least ≤ group.contributionAmount then 1 else 0,
    if most ≠ 0 ∧ group.contributionAmount ≤ most then 1 else 0,
    if duration ≠ 0 ∧ |nearest (group.cycleDuration - duration)| < 86400 * 7 then 2 else 0,
    nearest (matchingTags.length * (1 / 2))]

def getContentBasedRecommendations (groups : List (Group Id)) (pref : Option (UserPreference Id)) :
    List (Scored Id) :=
  match pref with
  | none => []
  | some pref =>
      byScore ((groups.map fun group => (group.id, contentScore pref group)).filter fun r => decide (0 < r.2))

/-! ## Sets and maps in the order of insertion -/

section Collections

variable {xs : List Id} {x g h : Id} {m : List (Scored Id)} {y : ℚ} {r : Scored Id}

/-- A set has the elements of the list it was made of. -/
theorem mem_newSet : x ∈ newSet xs ↔ x ∈ xs := by
  have hgo : ∀ (xs s : List Id), x ∈ xs.foldl (fun s x => if x ∈ s then s else s ++ [x]) s ↔
      x ∈ s ∨ x ∈ xs := by
    intro xs
    induction xs with
    | nil => simp
    | cons a xs ih =>
        intro s
        rw [List.foldl_cons, ih]
        by_cases ha : a ∈ s
        · rw [if_pos ha, List.mem_cons]
          constructor
          · rintro (hs | hxs)
            · exact Or.inl hs
            · exact Or.inr (Or.inr hxs)
          · rintro (hs | rfl | hxs)
            · exact Or.inl hs
            · exact Or.inl ha
            · exact Or.inr hxs
        · rw [if_neg ha, List.mem_append, List.mem_singleton, List.mem_cons, or_assoc]
  simpa [newSet] using hgo xs []

/-- None of them twice. -/
theorem nodup_newSet (xs : List Id) : (newSet xs).Nodup := by
  have hgo : ∀ (xs s : List Id), s.Nodup →
      (xs.foldl (fun s x => if x ∈ s then s else s ++ [x]) s).Nodup := by
    intro xs
    induction xs with
    | nil => exact fun s hs => hs
    | cons a xs ih =>
        intro s hs
        rw [List.foldl_cons]
        by_cases ha : a ∈ s
        · rw [if_pos ha]
          exact ih s hs
        · rw [if_neg ha]
          exact ih _ (List.nodup_append.mpr ⟨hs, List.nodup_singleton a, by
            rintro b hb c hc rfl
            exact ha (List.mem_singleton.mp hc ▸ hb)⟩)
  exact hgo xs [] List.nodup_nil

/-- So its size is theirs. -/
theorem length_newSet (xs : List Id) : (newSet xs).length = xs.toFinset.card := by
  rw [← List.toFinset_card_of_nodup (nodup_newSet xs)]
  congr 1
  ext x
  rw [List.mem_toFinset, List.mem_toFinset, mem_newSet]

/-- The keys of a map. -/
def keys (m : List (Scored Id)) : List Id := m.map Prod.fst

/-- A group that was not scored has none. -/
theorem scoreOf_of_not_mem (hg : g ∉ keys m) : scoreOf g m = 0 := by
  have hnone : m.find? (fun r => decide (r.1 = g)) = none := by
    rw [List.find?_eq_none]
    intro r hr heq
    exact hg (List.mem_map.mpr ⟨r, hr, of_decide_eq_true heq⟩)
  rw [scoreOf, hnone]
  rfl

/-- The score of an entry is the one in it. -/
theorem scoreOf_of_mem (hkeys : (keys m).Nodup) (hr : r ∈ m) : scoreOf r.1 m = r.2 := by
  induction m with
  | nil => exact absurd hr List.not_mem_nil
  | cons q m ih =>
      obtain ⟨hq, hrest⟩ := List.nodup_cons.mp hkeys
      rw [scoreOf, List.find?_cons]
      rcases List.mem_cons.mp hr with rfl | htail
      · simp
      · have hne : q.1 ≠ r.1 := fun heq => hq (heq ▸ List.mem_map.mpr ⟨r, htail, rfl⟩)
        simp only [hne, decide_false]
        exact ih hrest htail

/-- A score other than zero is that of an entry. -/
theorem mem_of_scoreOf (hg : scoreOf g m ≠ 0) : (g, scoreOf g m) ∈ m := by
  rw [scoreOf] at hg ⊢
  cases hfind : m.find? fun r => decide (r.1 = g) with
  | none =>
      rw [hfind] at hg
      exact absurd rfl hg
  | some r =>
      have hkey : r.1 = g := by simpa using List.find?_some hfind
      have hmem := List.mem_of_find?_eq_some hfind
      rw [← hkey]
      exact hmem

/-- A new group goes to the end, and one that is there stays where it is. -/
theorem keys_setScore : keys (setScore g y m) = if g ∈ keys m then keys m else keys m ++ [g] := by
  have hany : (m.any fun r => decide (r.1 = g)) = decide (g ∈ keys m) := by
    rw [Bool.eq_iff_iff, List.any_eq_true, decide_eq_true_iff, keys, List.mem_map]
    constructor
    · rintro ⟨r, hr, heq⟩
      exact ⟨r, hr, of_decide_eq_true heq⟩
    · rintro ⟨r, hr, heq⟩
      exact ⟨r, hr, decide_eq_true heq⟩
  rw [setScore, hany]
  by_cases hg : g ∈ keys m
  · rw [if_pos (decide_eq_true hg), if_pos hg, keys, keys, List.map_map]
    refine List.map_congr_left ?_
    intro r _
    show (if r.1 = g then (g, y) else r).1 = r.1
    split
    · next heq => exact heq.symm
    · rfl
  · rw [if_neg (by simpa using hg), if_neg hg, keys, keys, List.map_append]
    rfl

/-- The group that is scored again is found with its new score. -/
theorem find_rescored (hany : (m.any fun r => decide (r.1 = g)) = true) :
    (m.map fun r => if r.1 = g then (g, y) else r).find? (fun r => decide (r.1 = g)) = some (g, y) := by
  induction m with
  | nil => cases hany
  | cons r m ih =>
      rw [List.map_cons, List.find?_cons]
      by_cases hr : r.1 = g
      · rw [if_pos hr, decide_eq_true rfl]
      · rw [if_neg hr, decide_eq_false hr]
        rw [List.any_cons, decide_eq_false hr, Bool.false_or] at hany
        exact ih hany

/-- Any other one is found as it was. -/
theorem find_unscored (hne : h ≠ g) :
    (m.map fun r => if r.1 = g then (g, y) else r).find? (fun r => decide (r.1 = h)) =
      m.find? fun r => decide (r.1 = h) := by
  induction m with
  | nil => rfl
  | cons r m ih =>
      rw [List.map_cons, List.find?_cons, List.find?_cons, ih]
      by_cases hr : r.1 = g
      · have hrh : r.1 ≠ h := fun heq => hne (heq.symm.trans hr)
        rw [if_pos hr, decide_eq_false hne.symm, decide_eq_false hrh]
      · rw [if_neg hr]

/-- A score is set for one group. -/
theorem scoreOf_setScore : scoreOf h (setScore g y m) = if h = g then y else scoreOf h m := by
  rw [setScore]
  by_cases hany : (m.any fun r => decide (r.1 = g)) = true
  · -- the group is there: its entry is written over
    rw [if_pos hany]
    split
    · next heq =>
        subst heq
        rw [scoreOf, find_rescored hany]
        rfl
    · next hne => rw [scoreOf, scoreOf, find_unscored hne]
  · -- it is not: its entry is the last one
    rw [if_neg hany, scoreOf, List.find?_append]
    split
    · next heq =>
        subst heq
        have hnone : m.find? (fun r => decide (r.1 = h)) = none :=
          List.find?_eq_none.mpr fun r hr hrh => hany (List.any_eq_true.mpr ⟨r, hr, hrh⟩)
        rw [hnone, Option.none_or, List.find?_cons, decide_eq_true rfl]
        rfl
    · next hne =>
        have hnone : [(g, y)].find? (fun r => decide (r.1 = h)) = none := by
          rw [List.find?_cons, decide_eq_false (Ne.symm hne)]
          rfl
        rw [hnone, Option.or_none]
        rfl

end Collections

/-! ## The similarity and the sum -/

/-- The share of the groups of either that are groups of both, as a double. -/
def jaccard (A B : Finset Id) : ℚ := nearest ((A ∩ B).card / (A ∪ B).card)

/-- The groups a user has joined, as a set. -/
def groupsOf (interactions : List (UserInteraction Id)) (userId : Id) : Finset Id :=
  (joined interactions userId).toFinset

/-- What the other users that joined a group have in common with the user, added up in the
    order in which they are met. -/
def collaborativeScore (interactions : List (UserInteraction Id)) (userId groupId : Id) : ℚ :=
  let share other := jaccard (groupsOf interactions userId) (groupsOf interactions other)
  Binary64.sum (((otherUsers interactions userId).filter fun other =>
    decide (groupId ∈ groupsOf interactions other ∧ 0 < share other)).map share)

section Score

variable {interactions : List (UserInteraction Id)} {userGroups : List Id} {m : List (Scored Id)} {g : Id}

/-- The code's similarity is the rounded quotient of common and all groups. -/
theorem similarity_eq (A B : List Id) : similarity A B = jaccard A.toFinset B.toFinset := by
  have hunion : ((newSet (A ++ B)).length : ℚ) = (A.toFinset ∪ B.toFinset).card := by
    rw [length_newSet, List.toFinset_append]
  have hinter : ((newSet (A.filter fun id => decide (id ∈ B))).length : ℚ) =
      (A.toFinset ∩ B.toFinset).card := by
    rw [length_newSet]
    congr 2
    ext x
    simp
  rw [similarity, jaccard, ← hunion, ← hinter]
  by_cases hempty : (newSet (A ++ B)).length = 0
  · rw [if_pos hempty, hempty]
    simp
  · rw [if_neg hempty]

/-- It is a number the code can have. -/
theorem nearest_jaccard (A B : Finset Id) : nearest (jaccard A B) = jaccard A B :=
  Binary64.nearest_nearest _

/-- What the map holds on the way: a positive double for each key, of groups not joined. -/
structure Tally (userGroups : List Id) (m : List (Scored Id)) : Prop where
  keys : (keys m).Nodup
  positive : ∀ r ∈ m, 0 < r.2
  exact : ∀ r ∈ m, nearest r.2 = r.2
  fresh : ∀ r ∈ m, r.1 ∉ userGroups

/-- A map is a `Tally` when its keys are distinct, new, and have positive doubles. -/
theorem tally_of_scores (hkeys : (keys m).Nodup)
    (hall : ∀ g ∈ keys m, 0 < scoreOf g m ∧ nearest (scoreOf g m) = scoreOf g m ∧ g ∉ userGroups) :
    Tally userGroups m := by
  refine ⟨hkeys, ?_, ?_, ?_⟩
  · intro r hr
    rw [← scoreOf_of_mem hkeys hr]
    exact (hall r.1 (List.mem_map.mpr ⟨r, hr, rfl⟩)).1
  · intro r hr
    rw [← scoreOf_of_mem hkeys hr]
    exact (hall r.1 (List.mem_map.mpr ⟨r, hr, rfl⟩)).2.1
  · intro r hr
    exact (hall r.1 (List.mem_map.mpr ⟨r, hr, rfl⟩)).2.2

/-- A score is positive, one the code can have, and of no group of the user's own. -/
theorem Tally.score (h : Tally userGroups m) (hg : g ∈ Recommendation.keys m) :
    0 < scoreOf g m ∧ nearest (scoreOf g m) = scoreOf g m ∧ g ∉ userGroups := by
  obtain ⟨r, hr, rfl⟩ := List.mem_map.mp hg
  rw [scoreOf_of_mem h.keys hr]
  exact ⟨h.positive r hr, h.exact r hr, h.fresh r hr⟩

/-- No score is negative. -/
theorem Tally.nonneg (h : Tally userGroups m) (g : Id) : 0 ≤ scoreOf g m := by
  by_cases hg : g ∈ Recommendation.keys m
  · exact (h.score hg).1.le
  · rw [scoreOf_of_not_mem hg]

/-- One group of a similar user. -/
theorem Tally.addGroup (h : Tally userGroups m) {x : ℚ} (hx : 0 < x) (hexact : nearest x = x)
    (groupId : Id) : Tally userGroups (addGroup userGroups x m groupId) ∧
      ∀ g, scoreOf g (Recommendation.addGroup userGroups x m groupId) =
        if g = groupId ∧ g ∉ userGroups then nearest (scoreOf g m + x) else scoreOf g m := by
  rw [Recommendation.addGroup]
  -- the user's own groups are not scored
  by_cases hown : groupId ∈ userGroups
  · rw [if_pos hown]
    refine ⟨h, fun g => ?_⟩
    rw [if_neg fun hc => hc.2 (hc.1 ▸ hown)]
  -- any other group gains the similarity, rounded
  · rw [if_neg hown]
    refine ⟨tally_of_scores ?_ ?_, fun g => ?_⟩
    · rw [keys_setScore]
      split
      · exact h.keys
      · next hnew =>
          exact List.nodup_append.mpr ⟨h.keys, List.nodup_singleton _, by
            rintro b hb c hc rfl
            exact hnew (List.mem_singleton.mp hc ▸ hb)⟩
    · intro g hg
      rw [scoreOf_setScore]
      by_cases hgg : g = groupId
      · -- the sum is no less than what was added
        rw [if_pos hgg, hgg]
        exact ⟨hx.trans_le (Binary64.le_nearest_add hexact hx.le (h.nonneg groupId)),
          Binary64.nearest_nearest _, hown⟩
      · rw [if_neg hgg]
        rw [keys_setScore] at hg
        refine h.score ?_
        split at hg
        · exact hg
        · rcases List.mem_append.mp hg with hold | hnew
          · exact hold
          · exact absurd (List.mem_singleton.mp hnew) hgg
    · rw [scoreOf_setScore]
      by_cases hgg : g = groupId
      · subst hgg
        rw [if_pos rfl, if_pos ⟨rfl, hown⟩]
      · rw [if_neg hgg, if_neg fun hc => hgg hc.1]

/-- All the groups of a similar user. -/
theorem Tally.addGroups (h : Tally userGroups m) {x : ℚ} (hx : 0 < x) (hexact : nearest x = x)
    {groups : List Id} (hgroups : groups.Nodup) :
    Tally userGroups (groups.foldl (Recommendation.addGroup userGroups x) m) ∧
      ∀ g, scoreOf g (groups.foldl (Recommendation.addGroup userGroups x) m) =
        if g ∈ groups ∧ g ∉ userGroups then nearest (scoreOf g m + x) else scoreOf g m := by
  induction groups generalizing m with
  | nil => exact ⟨h, fun g => by simp⟩
  | cons a groups ih =>
      obtain ⟨ha, hrest⟩ := List.nodup_cons.mp hgroups
      obtain ⟨hone, hscore⟩ := h.addGroup hx hexact a
      obtain ⟨hall, hscores⟩ := ih hone hrest
      refine ⟨hall, fun g => ?_⟩
      rw [List.foldl_cons, hscores, hscore]
      by_cases hga : g = a
      · -- it is counted once
        subst hga
        simp [ha]
      · simp [hga]

/-- One other user. -/
theorem Tally.addUser (h : Tally userGroups m) (interactions : List (UserInteraction Id)) (other : Id) :
    Tally userGroups (addUser interactions userGroups m other) ∧
      ∀ g, g ∉ userGroups → scoreOf g (Recommendation.addUser interactions userGroups m other) =
        if g ∈ joined interactions other ∧ 0 < similarity userGroups (joined interactions other) then
          nearest (scoreOf g m + similarity userGroups (joined interactions other))
        else scoreOf g m := by
  rw [Recommendation.addUser]
  by_cases hsim : 0 < similarity userGroups (joined interactions other)
  · rw [if_pos hsim]
    have hexact : nearest (similarity userGroups (joined interactions other))
        = similarity userGroups (joined interactions other) := by
      rw [similarity_eq, nearest_jaccard]
    have hnodup : (joined interactions other).Nodup := nodup_newSet _
    obtain ⟨hall, hscores⟩ := h.addGroups hsim hexact hnodup
    refine ⟨hall, fun g hg => ?_⟩
    rw [hscores]
    exact if_congr ((and_iff_left hg).trans (and_iff_left hsim).symm) rfl rfl
  · rw [if_neg hsim]
    exact ⟨h, fun g _ => (if_neg fun hc => hsim hc.2).symm⟩

/-- All of them: the similarities of those that joined the group, added up in their order. -/
theorem Tally.addUsers (h : Tally userGroups m) (interactions : List (UserInteraction Id)) (others : List Id) :
    Tally userGroups (others.foldl (Recommendation.addUser interactions userGroups) m) ∧
      ∀ g, g ∉ userGroups →
        scoreOf g (others.foldl (Recommendation.addUser interactions userGroups) m) =
          Binary64.addAll (scoreOf g m) ((others.filter fun other => decide (g ∈ joined interactions other ∧
            0 < similarity userGroups (joined interactions other))).map fun other =>
              similarity userGroups (joined interactions other)) := by
  induction others generalizing m with
  | nil => exact ⟨h, fun _ _ => rfl⟩
  | cons other others ih =>
      obtain ⟨hone, hscore⟩ := h.addUser interactions other
      obtain ⟨hall, hscores⟩ := ih hone
      refine ⟨hall, fun g hg => ?_⟩
      rw [List.foldl_cons, hscores g hg, hscore g hg, List.filter_cons]
      by_cases hcounts : g ∈ joined interactions other ∧
          0 < similarity userGroups (joined interactions other)
      · rw [if_pos hcounts, if_pos (decide_eq_true hcounts)]
        rfl
      · rw [if_neg hcounts, if_neg (by simpa using hcounts)]

end Score

/-! ## The two lists -/

omit [DecidableEq Id] in
/-- The sort loses nobody. -/
theorem byScore_perm (rs : List (Scored Id)) : (byScore rs).Perm rs := List.perm_insertionSort _ rs

omit [DecidableEq Id] in
/-- Among doubles the sort is by the scores themselves. -/
theorem byScore_sorted {rs : List (Scored Id)} (hexact : ∀ r ∈ rs, nearest r.2 = r.2) :
    (byScore rs).Pairwise fun a b => b.2 ≤ a.2 := by
  have hsame := List.map_insertionSort (fun a b : Scored Id => nearest (b.2 - a.2) ≤ 0)
    (fun a b : Scored Id => b.2 ≤ a.2) id rs fun a ha b hb =>
      Binary64.nearest_sub_nonpos_iff (hexact b hb) (hexact a ha)
  rw [List.map_id, List.map_id] at hsame
  rw [byScore, hsame]
  exact List.pairwise_insertionSort _ rs

/-- The content list holds the groups of a positive score, the higher scores first; without a
    preference it is empty. -/
theorem content_listed (groups : List (Group Id)) (pref : Option (UserPreference Id)) :
    (∀ g score, (g, score) ∈ getContentBasedRecommendations groups pref ↔
      ∃ p ∈ pref, ∃ group ∈ groups, group.id = g ∧ contentScore p group = score ∧ 0 < score) ∧
      (getContentBasedRecommendations groups pref).Pairwise fun a b => b.2 ≤ a.2 := by
  cases pref with
  | none =>
      refine ⟨fun g score => ⟨fun h => absurd h List.not_mem_nil, ?_⟩, List.Pairwise.nil⟩
      rintro ⟨p, hp, _⟩
      exact absurd hp (Option.not_mem_none p)
  | some pref =>
      refine ⟨fun g score => ?_, byScore_sorted ?_⟩
      · rw [getContentBasedRecommendations, (byScore_perm _).mem_iff, List.mem_filter, List.mem_map]
        constructor
        · rintro ⟨⟨group, hgroup, heq⟩, hpos⟩
          obtain ⟨rfl, rfl⟩ := Prod.mk.inj heq
          exact ⟨pref, rfl, group, hgroup, rfl, rfl, of_decide_eq_true hpos⟩
        · rintro ⟨p, hp, group, hgroup, rfl, rfl, hpos⟩
          obtain rfl : pref = p := Option.some.inj hp
          exact ⟨⟨group, hgroup, rfl⟩, decide_eq_true hpos⟩
      · intro r hr
        obtain ⟨group, -, rfl⟩ := List.mem_map.mp (List.mem_filter.mp hr).1
        exact Binary64.nearest_nearest _

/-- **WHAT SIMILAR SAVERS JOINED**: the collaborative list holds exactly the groups the user
    has not joined and whose sum of similarities is positive, each of them once and with
    that sum, the higher scores first. -/
theorem collaborative_exact (interactions : List (UserInteraction Id)) (userId : Id) :
    (∀ g score, (g, score) ∈ getCollaborativeRecommendations interactions userId ↔
      g ∉ groupsOf interactions userId ∧ 0 < score ∧
        score = collaborativeScore interactions userId g) ∧
      ((getCollaborativeRecommendations interactions userId).map Prod.fst).Nodup ∧
      (getCollaborativeRecommendations interactions userId).Pairwise fun a b => b.2 ≤ a.2 := by
  -- before the first user nothing is scored
  have hempty : Tally (joined interactions userId) ([] : List (Scored Id)) :=
    ⟨List.nodup_nil, fun r hr => absurd hr List.not_mem_nil, fun r hr => absurd hr List.not_mem_nil,
      fun r hr => absurd hr List.not_mem_nil⟩
  obtain ⟨htally, hscores⟩ := hempty.addUsers interactions (otherUsers interactions userId)
  have hperm := byScore_perm
    ((otherUsers interactions userId).foldl (addUser interactions (joined interactions userId)) [])
  have hscore : ∀ g, g ∉ joined interactions userId → scoreOf g ((otherUsers interactions userId).foldl
      (addUser interactions (joined interactions userId)) []) = collaborativeScore interactions userId g := by
    intro g hg
    rw [hscores g hg, scoreOf_of_not_mem (m := []) List.not_mem_nil, collaborativeScore, Binary64.sum]
    simp only [similarity_eq, groupsOf, List.mem_toFinset]
  -- what is recommended, each group once, by score
  refine ⟨?_, ?_, ?_⟩
  · intro g score
    rw [getCollaborativeRecommendations, hperm.mem_iff, groupsOf, List.mem_toFinset]
    constructor
    · intro hmem
      have hfresh := htally.fresh _ hmem
      refine ⟨hfresh, htally.positive _ hmem, ?_⟩
      rw [← hscore g hfresh]
      exact (scoreOf_of_mem htally.keys hmem).symm
    · rintro ⟨hfresh, hpos, rfl⟩
      rw [← hscore g hfresh] at hpos ⊢
      exact mem_of_scoreOf hpos.ne'
  · exact (hperm.map Prod.fst).nodup_iff.mpr htally.keys
  · exact byScore_sorted htally.exact

/-- A tenth and two tenths are three tenths and a little more. -/
example : Binary64.sum [nearest (1 / 10), nearest (1 / 5)] ≠ nearest (3 / 10) := by decide +kernel

/-- Two users that joined one group, and another group of the second. -/
example : getCollaborativeRecommendations
    [⟨1, 10, .join⟩, ⟨2, 10, .join⟩, ⟨2, 20, .join⟩, ⟨3, 30, .view⟩] 1 = [(20, 1 / 2)] := by decide +kernel

end Recommendation
