import StellarSave.LayoutProofs
import StellarSave.PagingProofs

/-! # Member pages — three listings of one roster

    `get_members` returns the roster whole.  `get_group_members` cuts a page out of
    it by index, behind a CHECKED sum of offset and limit; `list_members` walks it
    with a counter and breaks behind the page, whose end SATURATES.  Page after page
    both return what `get_members` does, as long as the checked sum lets a reader
    ask for the page behind the last member. -/

namespace SaveMemberPages

open HostProg Footprint TokenLedger SaveData SaveMembership SaveLayout SaveCall SaveRoster
open Paging Trace Typing
open SaveView (getGroup getMembers)
open SaveRotation (fundedOpen)

/-! ## The loops -/

/-- The slice of `get_group_members`: what is found from `offset` up to the end
    index. -/
def paginated (allMembers : List Address) (offset endIndex : Nat) : List Address :=
  (List.range' offset (endIndex - offset)).filterMap fun i => allMembers[i]?

/-- `get_group_members`, with its two checked sums. -/
def getGroupMembers (g offset limit : Nat) : SaveM (List Address) := do
  let _grp ← getGroup g
  failIf (checkedU32 (offset + limit) = none) .overflow
  let membersMap : MemberMap ← getD (.grpMbrs g) ∅
  let allMembers := membersMap.members
  let pageLimit := min limit 100
  let totalMembers := allMembers.length
  if offset ≥ totalMembers then pure [] else do
    let stop ← okOr (checkedU32 (offset + pageLimit)) .overflow
    pure (paginated allMembers offset (min stop totalMembers))

/-- The loop of `list_members`: the counter is a `u32`, the end of the page
    saturates, and the loop breaks behind it. -/
def walk (offset pageSize : Nat) : Nat → List Address → List Address → SaveM (List Address)
  | _, result, [] => pure result
  | idx, result, addr :: rest => do
      let pageEnd := saturatingU32 (offset + pageSize)
      let result := if offset ≤ idx ∧ idx < pageEnd then result ++ [addr] else result
      let next ← unwrap (checkedU32 (idx + 1))
      if pageEnd ≤ next then pure result else walk offset pageSize next result rest

/-- `list_members`, member by member. -/
def listMembers (g offset limit : Nat) : SaveM (List Address) := do
  let _grp ← getGroup g
  let membersMap : MemberMap ← getD (.grpMbrs g) ∅
  walk offset (min limit 20) 0 [] membersMap.members

/-! ## What a loop returns -/

section Loops

variable {env : Env} {s : State} {offset : Nat}

/-- A slice is what is left of the list behind the offset, up to the end index. -/
theorem paginated_eq (xs : List Address) (room : Nat) (h : offset < xs.length) :
    paginated xs offset (min (offset + room) xs.length) = (xs.drop offset).take room := by
  have hpick : ∀ {n : Nat}, n ≤ xs.length - offset →
      (List.range' offset n).filterMap (fun i => xs[i]?) = (xs.drop offset).take n := by
    intro n hn
    induction n with
    | zero => rfl
    | succ n ih =>
        have hget : (xs.drop offset)[n]? = xs[offset + n]? := List.getElem?_drop
        have hsome : xs[offset + n]? = some xs[offset + n] := List.getElem?_eq_getElem (by omega)
        rw [List.range'_concat, List.filterMap_append, ih (Nat.le_of_succ_le hn), List.take_add_one,
          hget, Nat.one_mul, hsome]
        simp [hsome]
  rw [paginated, hpick (by omega)]
  by_cases hroom : room ≤ xs.length - offset
  · congr 1
    omega
  · rw [List.take_of_length_le (by rw [List.length_drop]; omega),
      List.take_of_length_le (by rw [List.length_drop]; omega)]

/-- The walk from the `idx`-th member on: by induction along the members left. -/
theorem walk_eq {pageSize idx : Nat} {result xs : List Address} (hoffset : offset ≤ u32Max)
    (hcount : idx + xs.length ≤ u32Max) :
    walk offset pageSize idx result xs env s =
      .ok (result ++ (xs.drop (offset - idx)).take
        (saturatingU32 (offset + pageSize) - max offset idx)) s := by
  have hend : offset ≤ saturatingU32 (offset + pageSize) := by
    rw [saturatingU32]
    omega
  -- a member is passed over before the offset, and taken up to the limit
  induction xs generalizing idx result with
  | nil =>
      rw [List.drop_nil, List.take_nil, List.append_nil]
      rfl
  | cons x xs ih =>
      rw [List.length_cons] at hcount
      have hnext : checkedU32 (idx + 1) = some (idx + 1) := if_pos (by omega)
      have hbody : ∀ result', (if offset ≤ idx ∧ idx < saturatingU32 (offset + pageSize) then
            result ++ [x] else result) = result' →
          walk offset pageSize idx result (x :: xs) env s =
            if saturatingU32 (offset + pageSize) ≤ idx + 1 then .ok result' s
            else walk offset pageSize (idx + 1) result' xs env s := by
        rintro _ rfl
        rw [walk, hnext]
        by_cases hbreak : saturatingU32 (offset + pageSize) ≤ idx + 1
        · rw [if_pos hbreak]
          show (if _ then _ else _ : SaveM (List Address)) env s = _
          rw [if_pos hbreak]
          rfl
        · rw [if_neg hbreak]
          show (if _ then _ else _ : SaveM (List Address)) env s = _
          rw [if_neg hbreak]
      have hrest : ∀ result', walk offset pageSize (idx + 1) result' xs env s =
          .ok (result' ++ (xs.drop (offset - (idx + 1))).take
            (saturatingU32 (offset + pageSize) - max offset (idx + 1))) s :=
        fun result' => ih (by omega)
      by_cases hbefore : idx < offset
      · -- before the page: nothing is taken
        rw [hbody result (if_neg (by omega))]
        have hdrop : (x :: xs).drop (offset - idx) = xs.drop (offset - (idx + 1)) := by
          have hsucc : offset - idx = offset - (idx + 1) + 1 := by omega
          rw [hsucc, List.drop_succ_cons]
        rw [hdrop]
        by_cases hbreak : saturatingU32 (offset + pageSize) ≤ idx + 1
        · have hzero : saturatingU32 (offset + pageSize) - max offset idx = 0 := by omega
          rw [if_pos hbreak, hzero, List.take_zero, List.append_nil]
        · rw [if_neg hbreak, hrest, Nat.max_eq_left hbefore, Nat.max_eq_left (Nat.le_of_lt hbefore)]
      · have hle : offset ≤ idx := Nat.le_of_not_lt hbefore
        rw [Nat.sub_eq_zero_of_le hle, List.drop_zero, Nat.max_eq_right hle]
        by_cases hpage : idx < saturatingU32 (offset + pageSize)
        · -- on the page
          have hsucc : saturatingU32 (offset + pageSize) - idx =
              saturatingU32 (offset + pageSize) - (idx + 1) + 1 := by omega
          rw [hbody (result ++ [x]) (if_pos ⟨hle, hpage⟩), hsucc, List.take_succ_cons]
          by_cases hbreak : saturatingU32 (offset + pageSize) ≤ idx + 1
          · rw [if_pos hbreak, Nat.sub_eq_zero_of_le hbreak, List.take_zero]
          · have hnext' : offset ≤ idx + 1 := Nat.le_succ_of_le hle
            rw [if_neg hbreak, hrest, Nat.sub_eq_zero_of_le hnext', List.drop_zero,
              Nat.max_eq_right hnext', List.append_assoc, List.singleton_append]
        · -- behind it, where the loop breaks
          rw [hbody result (if_neg (by omega)), if_pos (by omega),
            Nat.sub_eq_zero_of_le (Nat.le_of_not_lt hpage), List.take_zero, List.append_nil]

end Loops

/-! ## One page -/

section Page

variable {env : Env} {s : State} {g offset limit : Nat} {grp : SaveData.Group} {roster : MemberMap}

/-- The members map, empty where none is stored. -/
abbrev rosterOf (s : State) (g : Nat) : MemberMap := (membersAt s g).getD ∅

theorem getMembers_eq (hgrp : groupAt s g = some grp) (hmap : membersAt s g = some roster) :
    getMembers g env s = .ok roster.members s := by
  rw [getMembers, getGroup, getOr_bind_ok]
  refine ⟨grp, hgrp, ?_⟩
  rw [getOr_bind_ok]
  exact ⟨roster, hmap, rfl⟩

/-- Behind the check of the sum, the loop of `get_group_members` is a slice. -/
theorem getGroupMembers_slice :
    getGroupMembers g offset limit = SaveView.getGroupMembers g offset limit := by
  rw [getGroupMembers, SaveView.getGroupMembers]
  refine congrArg (getGroup g >>= ·) (funext fun _ => ?_)
  cases hfits : checkedU32 (offset + limit) with
  | none => rfl
  | some n =>
      obtain ⟨hle, -⟩ := checkedU32_eq_some.mp hfits
      have hstop : checkedU32 (offset + min limit 100) = some (offset + min limit 100) :=
        checkedU32_eq_some.mpr ⟨by omega, rfl⟩
      have hrest : ∀ membersMap : MemberMap, (if offset ≥ membersMap.members.length then pure [] else do
            let stop ← okOr (checkedU32 (offset + min limit 100)) .overflow
            pure (paginated membersMap.members offset (min stop membersMap.members.length)) :
            SaveM (List Address)) = pure ((membersMap.members.drop offset).take (min limit 100)) := by
        intro membersMap
        by_cases hbeyond : offset ≥ membersMap.members.length
        · rw [if_pos hbeyond, List.drop_of_length_le hbeyond, List.take_nil]
        · rw [if_neg hbeyond, hstop, ← paginated_eq _ _ (Nat.lt_of_not_le hbeyond)]
          rfl
      exact congrArg (fun f => (getD (Key.grpMbrs g) ∅ : SaveM MemberMap) >>= f) (funext hrest)

/-- **A CHECKED PAGE**: the slice, unless the sum of offset and limit is too large. -/
theorem getGroupMembers_eq (hlaw : Obeys layout s) (hgrp : groupAt s g = some grp)
    (hfits : offset + limit ≤ u32Max) :
    getGroupMembers g offset limit env s =
      .ok (((rosterOf s g).members.drop offset).take (min limit 100)) s := by
  rw [getGroupMembers_slice, SaveView.getGroupMembers, getGroup, getOr_bind_ok]
  refine ⟨grp, hgrp, ?_⟩
  rw [okOr_bind_ok]
  refine ⟨_, checkedU32_eq_some.mpr ⟨hfits, rfl⟩, ?_⟩
  rw [getD_bind_ok]
  exact ⟨typed_of_obeys hlaw, rfl⟩

/-- Past the last `u32` it is an error, whatever the roster. -/
theorem getGroupMembers_overflows (hgrp : groupAt s g = some grp) (hover : u32Max < offset + limit) :
    getGroupMembers g offset limit env s = .err .overflow s := by
  rw [getGroupMembers_slice, SaveView.getGroupMembers, getGroup, getOr_bind_err]
  refine Or.inr ⟨grp, hgrp, ?_⟩
  rw [checkedU32_eq_none.mpr hover]
  rfl

/-- The walk of `list_members` is a slice as well, of any roster a `u32` can count. -/
theorem listMembers_slice (hlaw : Obeys layout s) (hgrp : groupAt s g = some grp)
    (hcount : (rosterOf s g).members.length ≤ u32Max) (hoffset : offset ≤ u32Max) :
    listMembers g offset limit env s = SaveView.listMembers g offset limit env s := by
  have hview : SaveView.listMembers g offset limit env s = .ok (SaveView.page (rosterOf s g).members
      offset (saturatingU32 (offset + min limit 20) - offset)) s := by
    rw [SaveView.listMembers, getGroup, getOr_bind_ok]
    refine ⟨grp, hgrp, ?_⟩
    rw [getD_bind_ok]
    exact ⟨typed_of_obeys hlaw, rfl⟩
  rw [hview, listMembers, getGroup, getOr_bind_ok]
  refine ⟨grp, hgrp, ?_⟩
  rw [getD_bind_ok]
  refine ⟨typed_of_obeys hlaw, ?_⟩
  show walk offset (min limit 20) 0 [] (rosterOf s g).members env s = _
  rw [walk_eq hoffset (by omega), List.nil_append, Nat.sub_zero, Nat.max_eq_left (Nat.zero_le _),
    SaveView.page]

/-- **A SATURATING PAGE**: where its end saturates there are no more members than
    fit below it. -/
theorem listMembers_eq (hlaw : Obeys layout s) (hgrp : groupAt s g = some grp)
    (hcount : (rosterOf s g).members.length ≤ u32Max) (hoffset : offset ≤ u32Max) :
    listMembers g offset limit env s =
      .ok (((rosterOf s g).members.drop offset).take (min limit 20)) s := by
  have hpage : ((rosterOf s g).members.drop offset).take
        (saturatingU32 (offset + min limit 20) - offset) =
      ((rosterOf s g).members.drop offset).take (min limit 20) := by
    by_cases hfits : offset + min limit 20 ≤ u32Max
    · rw [saturatingU32, Nat.min_eq_left hfits, Nat.add_sub_cancel_left]
    · rw [saturatingU32, Nat.min_eq_right (Nat.le_of_not_le hfits),
        List.take_of_length_le (by rw [List.length_drop]; omega),
        List.take_of_length_le (by rw [List.length_drop]; omega)]
  rw [listMembers_slice hlaw hgrp hcount hoffset, SaveView.listMembers, getGroup, getOr_bind_ok]
  refine ⟨grp, hgrp, ?_⟩
  rw [getD_bind_ok, ← hpage]
  exact ⟨typed_of_obeys hlaw, rfl⟩

end Page

/-! ## Page after page -/

/-- What a call that ends well returns. -/
def answer {α : Type} (m : SaveM α) (env : Env) (s : State) : Option α :=
  match m env s with
  | .ok a _ => some a
  | _ => none

/-- Page after page of `get_group_members`, up to the first empty one; each starts
    as many members on as the last one returned. -/
def groupPages (env : Env) (s : State) (g limit calls : Nat) : Option (List (List Address)) :=
  pages (byOffset fun offset => answer (getGroupMembers g offset limit) env s) calls 0

/-- Page after page of `list_members`. -/
def listPages (env : Env) (s : State) (g limit calls : Nat) : Option (List (List Address)) :=
  pages (byOffset fun offset => answer (listMembers g offset limit) env s) calls 0

/-- The three listings of a roster. -/
structure ListingsAgree (env : Env) (s : State) (g : Nat) (roster : MemberMap) : Prop where
  /-- In the order of the keys, one entry each. -/
  ordered : roster.toList.Pairwise fun a b => a.1 < b.1
  whole : getMembers g env s = .ok (roster.toList.map Prod.snd) s
  walked : ∀ limit, 1 ≤ limit → ∃ calls ps, listPages env s g limit calls = some ps ∧
    ps.flatten = roster.toList.map Prod.snd
  sliced : ∀ limit, 1 ≤ limit → limit + roster.size ≤ u32Max →
    ∃ calls ps, groupPages env s g limit calls = some ps ∧
      ps.flatten = roster.toList.map Prod.snd
  /-- For a larger limit the reader does not get to the end. -/
  refused : ∀ limit, 1 ≤ limit → u32Max < limit + roster.size →
    ∀ calls, groupPages env s g limit calls = none
  overflows : ∀ offset limit, u32Max < offset + limit →
    getGroupMembers g offset limit env s = .err .overflow s
  untrapped : ∀ offset limit, offset ≤ u32Max → limit ≤ u32Max →
    getGroupMembers g offset limit env s ≠ .trap ∧ listMembers g offset limit env s ≠ .trap

section Agreement

variable {env : Env} {s : State} {g limit : Nat} {grp : SaveData.Group} {roster : MemberMap}

theorem answer_of_ok {α : Type} {m : SaveM α} {a : α} {t : State} (h : m env s = .ok a t) :
    answer m env s = some a := by
  rw [answer, h]

theorem groupPages_complete (hlaw : Obeys layout s) (hgrp : groupAt s g = some grp)
    (hpos : 1 ≤ limit) (hfits : limit + (rosterOf s g).members.length ≤ u32Max) :
    ∃ calls ps, groupPages env s g limit calls = some ps ∧ ps.flatten = (rosterOf s g).members := by
  have hslice : ∀ offset, offset ≤ (rosterOf s g).members.length →
      answer (getGroupMembers g offset limit) env s =
        some (((rosterOf s g).members.drop offset).take (min limit 100)) :=
    fun offset hoffset => answer_of_ok (getGroupMembers_eq hlaw hgrp (by omega))
  obtain ⟨ps, hps, hflat⟩ := byOffset_complete (by omega) hslice
  exact ⟨_, ps, hps, hflat⟩

/-- **NO LAST PAGE**: the page behind the last member has an offset that the limit
    takes past the last `u32`. -/
theorem groupPages_refused (hlaw : Obeys layout s) (hgrp : groupAt s g = some grp)
    (hpos : 1 ≤ limit) (hover : u32Max < limit + (rosterOf s g).members.length) (calls : Nat) :
    groupPages env s g limit calls = none := by
  cases hpages : groupPages env s g limit calls with
  | none => rfl
  | some ps =>
      have hslice : ∀ offset items, answer (getGroupMembers g offset limit) env s = some items →
          items = ((rosterOf s g).members.drop offset).take (min limit 100) := by
        intro offset items h
        by_cases hfits : offset + limit ≤ u32Max
        · rw [answer_of_ok (getGroupMembers_eq hlaw hgrp hfits)] at h
          exact (Option.some.inj h).symm
        · rw [answer, getGroupMembers_overflows hgrp (Nat.lt_of_not_le hfits)] at h
          cases h
      obtain ⟨items, hitems⟩ := listing_end_of_pages (by omega) hslice hpages
      rw [answer, getGroupMembers_overflows hgrp (by omega)] at hitems
      cases hitems

/-- **ONE ROSTER, THREE LISTINGS**: the walk returns what `get_members` does
    whatever the page size; the slices do as long as page size and roster together
    fit a `u32`, and refuse the last page otherwise.  Neither ever traps. -/
theorem member_listings_agree (hlaw : Obeys layout s) (hgrp : groupAt s g = some grp)
    (hmap : membersAt s g = some roster) (hsize : roster.size ≤ u32Max) :
    ListingsAgree env s g roster := by
  have hroster : rosterOf s g = roster := by
    rw [rosterOf, hmap]
    rfl
  have hlength : (rosterOf s g).members.length = roster.size := by
    rw [hroster, MemberMap.members, List.length_map, Std.TreeMap.length_toList]
  have hmembers : (rosterOf s g).members = roster.toList.map Prod.snd := by
    rw [hroster, MemberMap.members]
  have hcount : (rosterOf s g).members.length ≤ u32Max := hlength ▸ hsize
  constructor
  · exact Std.TreeMap.ordered_keys_toList.imp fun h => Nat.compare_eq_lt.mp h
  · exact getMembers_eq hgrp hmap
  · intro limit hpos
    have hslice : ∀ offset, offset ≤ (rosterOf s g).members.length →
        answer (listMembers g offset limit) env s =
          some (((rosterOf s g).members.drop offset).take (min limit 20)) :=
      fun offset hoffset => answer_of_ok (listMembers_eq hlaw hgrp hcount (hoffset.trans hcount))
    obtain ⟨ps, hps, hflat⟩ := byOffset_complete (by omega) hslice
    exact ⟨_, ps, hps, hflat.trans hmembers⟩
  · intro limit hpos hfits
    rw [← hlength] at hfits
    rw [← hmembers]
    exact groupPages_complete hlaw hgrp hpos hfits
  · intro limit hpos hover
    rw [← hlength] at hover
    exact groupPages_refused hlaw hgrp hpos hover
  · exact fun offset limit => getGroupMembers_overflows hgrp
  · intro offset limit hoffset hlimit
    -- both stop at the number of members, if the sum does not overflow
    constructor
    · by_cases hfits : offset + limit ≤ u32Max
      · rw [getGroupMembers_eq hlaw hgrp hfits]
        exact fun h => by cases h
      · rw [getGroupMembers_overflows hgrp (Nat.lt_of_not_le hfits)]
        exact fun h => by cases h
    · rw [listMembers_eq hlaw hgrp hcount hoffset]
      exact fun h => by cases h

end Agreement

/-! A page size close to the last `u32`. -/

/-- A group of two. -/
def twoJoin : List Step :=
  [.call trioEnv (.joinGroup 1 ⟨1⟩ none), .call trioEnv (.joinGroup 1 ⟨2⟩ none)]

/-- Storage after them. -/
abbrev afterTwo : State := run twoJoin fundedOpen

theorem afterTwo_obeys : Obeys layout afterTwo :=
  exec_invariant_always (I := Obeys layout) obeys_apply fundedOpen_obeys twoJoin

theorem member_listings_agree_two :
    ∃ roster, membersAt afterTwo 1 = some roster ∧ roster.size = 2 ∧
      ListingsAgree trioEnv afterTwo 1 roster := by
  obtain ⟨grp, hgrp⟩ : ∃ grp, groupAt afterTwo 1 = some grp := ⟨_, rfl⟩
  obtain ⟨roster, hmap, hsize⟩ : ∃ roster, membersAt afterTwo 1 = some roster ∧ roster.size = 2 :=
    ⟨_, rfl, rfl⟩
  refine ⟨roster, hmap, hsize, member_listings_agree afterTwo_obeys hgrp hmap ?_⟩
  rw [hsize]
  decide

/-- **THE SECOND PAGE IS REFUSED**: asked for as many as a `u32` can say, the first
    page holds both members, and there is no asking for the next. -/
theorem largest_page_size_refused :
    answer (getGroupMembers 1 0 u32Max) trioEnv afterTwo = some [⟨1⟩, ⟨2⟩] ∧
      getGroupMembers 1 2 u32Max trioEnv afterTwo = .err .overflow afterTwo ∧
      ¬ ∃ calls ps, groupPages trioEnv afterTwo 1 u32Max calls = some ps := by
  obtain ⟨grp, hgrp⟩ : ∃ grp, groupAt afterTwo 1 = some grp := ⟨_, rfl⟩
  have hlength : (rosterOf afterTwo 1).members.length = 2 := rfl
  refine ⟨rfl, getGroupMembers_overflows hgrp (by omega), ?_⟩
  rintro ⟨calls, ps, hpages⟩
  rw [groupPages_refused afterTwo_obeys hgrp (by decide) (by rw [hlength]; omega) calls] at hpages
  cases hpages

end SaveMemberPages
