import Mathlib.Algebra.Order.BigOperators.Group.Finset
import StellarSave.TallyProofs
import StellarSave.ViewProofs
import StellarSave.RotationProofs

/-! # Ratings — a sum and a count kept beside the stars

    `rate_group` files one rating under each member and adds it to a running
    aggregate; nothing ever takes a rating away or writes one twice.  What is
    shown is the aggregate, and it is the sum of what was filed. -/

namespace SaveRating

open HostProg Footprint TokenLedger SaveData SaveMembership SaveAdmin SaveView SaveCall Trace Tally
open SaveRoster (trioEnv)
open SaveRotation (fundedOpen)

/-- The stars a member has given. -/
def starsAt (s : State) (g : Nat) (a : Address) : Option Int :=
  (readAt RatingEntry s.persistent (.grpRate g a)).map fun entry => (entry.stars : Int)

/-- The running totals of a group. -/
abbrev aggregateAt (s : State) (g : Nat) : RatingAggregate :=
  (readAt RatingAggregate s.persistent (.grpRateA g)).getD ⟨0, 0⟩

/-- Nobody has rated the group. -/
structure Unrated (s : State) (g : Nat) : Prop where
  ratings : ∀ a, s.persistent (.grpRate g a) = none
  aggregate : s.persistent (.grpRateA g) = none

/-- The aggregate is the sum and the number of the ratings, each from one to five
    stars. -/
structure Aggregated (s : State) (g : Nat) : Prop where
  typed : TypedAt RatingAggregate s.persistent (.grpRateA g)
  tally : Tallied (starsAt s g) (aggregateAt s g).totalStars (aggregateAt s g).ratingCount
  stars : ∀ a n, starsAt s g a = some n → 1 ≤ n ∧ n ≤ 5
  count : (aggregateAt s g).ratingCount ≤ u32Max

section Step

variable {env : Env} {s t : State} {g stars : Nat} {caller : Address} {comment : String} {u : Unit}

theorem aggregated_of_unrated (h : Unrated s g) : Aggregated s g := by
  have hnone : ∀ a, starsAt s g a = none := by
    intro a
    rw [starsAt, readAt, h.ratings]
    rfl
  have hzero : aggregateAt s g = ⟨0, 0⟩ := by
    rw [aggregateAt, readAt, h.aggregate]
    rfl
  refine ⟨typedAt_of_none h.aggregate, ?_, fun a n ha => ?_, ?_⟩
  · rw [hzero]
    exact tallied_none hnone
  · rw [hnone] at ha
    cases ha
  · rw [hzero]
    exact Nat.zero_le _

/-- What is not written stays as it is. -/
theorem Aggregated.congr (h : Aggregated s g)
    (hratings : ∀ a, t.persistent (.grpRate g a) = s.persistent (.grpRate g a))
    (haggregate : t.persistent (.grpRateA g) = s.persistent (.grpRateA g)) : Aggregated t g := by
  have hstars : ∀ a, starsAt t g a = starsAt s g a := by
    intro a
    rw [starsAt, readAt_congr (hratings a), ← starsAt]
  have hsame : aggregateAt t g = aggregateAt s g := by
    rw [aggregateAt, readAt_congr haggregate]
  refine ⟨h.typed.congr haggregate, ?_, fun a n ha => h.stars a n ((hstars a).symm.trans ha), ?_⟩
  · rw [hsame]
    exact h.tally.congr hstars
  · rw [hsame]
    exact h.count

theorem rateGroup_ok (h : rateGroup caller g stars comment env s = .ok u t) :
    (1 ≤ stars ∧ stars ≤ 5) ∧ s.persistent (.grpRate g caller) = none ∧
      (aggregateAt s g).totalStars + stars ≤ u64Max ∧ (aggregateAt s g).ratingCount + 1 ≤ u32Max ∧
      (s.set (.grpRate g caller) (Codec.encode (RatingEntry.mk caller stars comment env.timestamp))).set
        (.grpRateA g) (Codec.encode (RatingAggregate.mk ((aggregateAt s g).totalStars + stars)
          ((aggregateAt s g).ratingCount + 1))) = t := by
  simp [rateGroup, typedAt_set_of_ne] at h
  obtain ⟨-, -, -, -, -, hstars, -, hfree, -, htotal, hcount, ht⟩ := h
  exact ⟨hstars, hfree, htotal, hcount, ht⟩

/-- **ONE RATING** is added to the sum under a key that was free. -/
theorem rateGroup_aggregated (hs : Aggregated s g)
    (h : rateGroup caller g stars comment env s = .ok u t) : Aggregated t g := by
  obtain ⟨⟨hlow, hhigh⟩, hfree, -, hcount, rfl⟩ := rateGroup_ok h
  -- the sum and the count as they are stored
  have hagg : aggregateAt ((s.set (.grpRate g caller) (Codec.encode
        (RatingEntry.mk caller stars comment env.timestamp))).set (.grpRateA g)
        (Codec.encode (RatingAggregate.mk ((aggregateAt s g).totalStars + stars)
          ((aggregateAt s g).ratingCount + 1)))) g
      = ⟨(aggregateAt s g).totalStars + stars, (aggregateAt s g).ratingCount + 1⟩ := by
    simp [aggregateAt]
  have hfiled : ∀ a, starsAt ((s.set (.grpRate g caller) (Codec.encode
        (RatingEntry.mk caller stars comment env.timestamp))).set (.grpRateA g)
        (Codec.encode (RatingAggregate.mk ((aggregateAt s g).totalStars + stars)
          ((aggregateAt s g).ratingCount + 1)))) g a
      -- the rating of the caller is new, the others stay
      = if a = caller then some (stars : Int) else starsAt s g a := by
    intro a
    by_cases ha : a = caller
    · simp [starsAt, ha]
    · simp [starsAt, ha]
  have hnone : starsAt s g caller = none := by
    rw [starsAt, readAt, hfree]
    rfl
  refine ⟨typedAt_set_self _ _ _, ?_, fun a n ha => ?_, ?_⟩
  · rw [hagg]
    exact hs.tally.file hnone hfiled
  · rw [hfiled] at ha
    by_cases hown : a = caller
    · rw [if_pos hown] at ha
      obtain rfl := Option.some.inj ha
      omega
    · rw [if_neg hown] at ha
      exact hs.stars a n ha
  · rw [hagg]
    exact hcount

/-- **ONE CALL**: only a rating of the group touches its ratings. -/
theorem aggregated_step {c : Call} (hs : Aggregated s g) (h : c.body env s = .ok () t) :
    Aggregated t g := by
  have hagree := Within.agree_ok (w := c.footprint) h
  cases c with
  | rateGroup caller g' stars comment =>
      by_cases hg : g' = g
      · subst hg
        exact rateGroup_aggregated hs h
      · exact hs.congr (fun a => hagree.persistent _ (by simp [Ne.symm hg]))
          (hagree.persistent _ (by simp [Ne.symm hg]))
  | _ =>
      exact hs.congr (fun a => hagree.persistent _ (Place.other_kind rfl))
        (hagree.persistent _ (Place.other_kind rfl))

theorem aggregated_apply (x : Step) (s : State) (hs : Aggregated s g) : Aggregated (apply x s) g :=
  apply_invariant (C := fun _ _ => True) (I := fun t => Aggregated t g)
    (fun _ _ _ _ _ hs h => aggregated_step hs h)
    (fun _ h => h.congr (fun _ => rfl) rfl) (fun _ _ h => h.congr (fun _ => rfl) rfl) x s trivial hs

end Step

/-! ## What is shown -/

section Shown

variable {env : Env} {s : State} {g n k : Nat} {f : Address → Option Int}

/-- Ratings from one to five add up to between one and five times their number. -/
theorem sum_bounds (h : Tallied f n k) (hstars : ∀ a x, f a = some x → 1 ≤ x ∧ x ≤ 5) :
    k ≤ n ∧ n ≤ 5 * k := by
  obtain ⟨P, hP, hsum, rfl⟩ := h
  have heach : ∀ a ∈ P, 1 ≤ (f a).getD 0 ∧ (f a).getD 0 ≤ 5 := by
    intro a ha
    obtain ⟨x, hx⟩ := Option.ne_none_iff_exists'.mp ((hP a).mp ha)
    rw [hx]
    exact hstars a x hx
  have hlow : (P.card : Int) ≤ ∑ a ∈ P, (f a).getD 0 := by
    have hones := Finset.sum_le_sum fun a ha => (heach a ha).1
    simpa using hones
  have hhigh : ∑ a ∈ P, (f a).getD 0 ≤ P.card * 5 := by
    have hfives := Finset.sum_le_sum fun a ha => (heach a ha).2
    simpa using hfives
  rw [hsum] at hlow hhigh
  omega

/-- **THE AVERAGE** in hundredths, between one star and five. -/
theorem getGroupRating_shows (hs : Aggregated s g) (hgrp : s.persistent (.grp g) ≠ none) :
    ∃ average, getGroupRating g env s
        = .ok ((aggregateAt s g).ratingCount, average, (aggregateAt s g).totalStars) s ∧
      (0 < (aggregateAt s g).ratingCount → 100 ≤ average ∧ average ≤ 500) := by
  obtain ⟨hlow, hhigh⟩ := sum_bounds hs.tally hs.stars
  have hcount := hs.count
  by_cases hzero : (aggregateAt s g).ratingCount = 0
  · refine ⟨0, ?_, fun hpos => absurd hzero (Nat.pos_iff_ne_zero.mp hpos)⟩
    simp [getGroupRating, hgrp, hs.typed, hzero]
  · have hpos := Nat.pos_of_ne_zero hzero
    have hscaled : (aggregateAt s g).totalStars * 100 ≤ u64Max := by
      have hbound : 500 * u32Max ≤ u64Max := by decide
      omega
    have hmin : 100 ≤ (aggregateAt s g).totalStars * 100 / (aggregateAt s g).ratingCount :=
      (Nat.le_div_iff_mul_le hpos).mpr (by omega)
    have hmax : (aggregateAt s g).totalStars * 100 / (aggregateAt s g).ratingCount ≤ 500 :=
      Nat.div_le_of_le_mul (by omega)
    have hfits : (aggregateAt s g).totalStars * 100 / (aggregateAt s g).ratingCount % (u32Max + 1)
        = (aggregateAt s g).totalStars * 100 / (aggregateAt s g).ratingCount :=
      Nat.mod_eq_of_lt (Nat.lt_of_le_of_lt hmax (by decide))
    refine ⟨(aggregateAt s g).totalStars * 100 / (aggregateAt s g).ratingCount, ?_,
      fun _ => ⟨hmin, hmax⟩⟩
    simp [getGroupRating, hgrp, hs.typed, hzero, hscaled, hfits]

end Shown

/-- **THE RATINGS ADD UP**: along every run the sum and the number that are kept are
    those of the ratings under the keys of their members, and the average shown is
    between one star and five. -/
theorem ratings_add_up (s : State) (g : Nat) (hs : Unrated s g) (steps : List Step) :
    Tallied (starsAt (run steps s) g) (aggregateAt (run steps s) g).totalStars
        (aggregateAt (run steps s) g).ratingCount ∧
      (∀ env, (run steps s).persistent (.grp g) ≠ none → ∃ average,
        getGroupRating g env (run steps s) = .ok ((aggregateAt (run steps s) g).ratingCount, average,
          (aggregateAt (run steps s) g).totalStars) (run steps s) ∧
        (0 < (aggregateAt (run steps s) g).ratingCount → 100 ≤ average ∧ average ≤ 500)) := by
  have hrun : Aggregated (run steps s) g :=
    exec_invariant_always aggregated_apply (aggregated_of_unrated hs) steps
  exact ⟨hrun.tally, fun env hgrp => getGroupRating_shows hrun hgrp⟩

/-! Two members dissolve their group and rate it. -/

/-- Five stars, two stars, and a second try of the first. -/
def ratedTwice : List Step :=
  [.call trioEnv (.joinGroup 1 ⟨1⟩ none), .call trioEnv (.joinGroup 1 ⟨2⟩ none),
    .call trioEnv (.activateGroup 1 ⟨1⟩), .call trioEnv (.voteDissolve 1 ⟨1⟩),
    .call trioEnv (.voteDissolve 1 ⟨2⟩), .call trioEnv (.rateGroup ⟨1⟩ 1 5 "good"),
    .call trioEnv (.rateGroup ⟨2⟩ 1 2 ""), .call trioEnv (.rateGroup ⟨1⟩ 1 1 "again")]

theorem fundedOpen_unrated : Unrated fundedOpen 1 := ⟨fun _ => rfl, rfl⟩

theorem ratings_add_up_twice :
    aggregateAt (run ratedTwice fundedOpen) 1 = ⟨7, 2⟩ ∧
      Tallied (starsAt (run ratedTwice fundedOpen) 1) 7 2 := by
  have hagg : aggregateAt (run ratedTwice fundedOpen) 1 = ⟨7, 2⟩ := by decide +kernel
  obtain ⟨htally, -⟩ := ratings_add_up fundedOpen 1 fundedOpen_unrated ratedTwice
  rw [hagg] at htally
  exact ⟨hagg, htally⟩

end SaveRating
