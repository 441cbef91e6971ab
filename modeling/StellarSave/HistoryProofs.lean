import StellarSave.LayoutProofs
import StellarSave.PagingProofs

/-! # History — a cursor of cycles, a limit of records

    `get_member_contribution_history` starts at a cycle and stops at a number of
    records.  A reader who steps the cycle by the limit, as its documentation says,
    comes to a page that starts where the last one did not end as soon as a missed
    cycle lets the page run past its own cycles. -/

namespace SaveHistory

open HostProg Footprint TokenLedger SaveData SaveMembership SaveView SaveLayout SaveCall
open SaveRoster Paging Trace Typing
open SaveRotation (fundedOpen)

variable {env : Env} {s t : State} {g limit : Nat} {member : Address} {grp : SaveData.Group}

/-- The records of the cycles of a list, in its order. -/
abbrev recordsOf (s : State) (g : Nat) (member : Address) (cycles : List Nat) :
    List ContributionRecord :=
  cycles.filterMap fun c => contribAt s g c member

/-! ## One page -/

/-- One cycle of the scan. -/
def lookAt (g : Nat) (member : Address) (limit : Nat) (collected : List ContributionRecord)
    (cycle : Nat) : SaveM (List ContributionRecord) :=
  if collected.length > limit then pure collected else do
    let record : Option ContributionRecord ← getOpt (.contrib g cycle member)
    let _next ← unwrap (checkedU32 (cycle + 1))
    pure (collected ++ record.toList)

theorem lookAt_ok (hs : Obeys layout s) {collected r : List ContributionRecord} {c : Nat}
    (hroom : collected.length ≤ limit) :
    lookAt g member limit collected c env s = .ok r t ↔
      c < u32Max ∧ collected ++ (contribAt s g c member).toList = r ∧ s = t := by
  rw [lookAt, if_neg (Nat.not_lt.mpr hroom), getOpt_bind_ok]
  simp only [typed_of_obeys hs, true_and, unwrap_bind_ok, checkedU32_eq_some, pure_ok]
  constructor
  · rintro ⟨_, ⟨hnext, -⟩, hrest⟩
    exact ⟨hnext, hrest⟩
  · rintro ⟨hnext, hrest⟩
    exact ⟨_, ⟨hnext, rfl⟩, hrest⟩

/-- A scan of cycles below the last `u32` collects their records, up to one past
    the limit: by induction along the cycles. -/
theorem scan_eq (hs : Obeys layout s) {collected : List ContributionRecord} {cycles : List Nat}
    (hcycles : ∀ c ∈ cycles, c < u32Max) :
    foldEach (lookAt g member limit) collected cycles env s =
      .ok (cycles.foldl (fill (fun c => contribAt s g c member) (limit + 1)) collected) s := by
  induction cycles generalizing collected with
  | nil => rfl
  | cons c cycles ih =>
      have hat : lookAt g member limit collected c env s =
          .ok (fill (fun c => contribAt s g c member) (limit + 1) collected c) s := by
        rw [fill]
        by_cases hroom : collected.length ≤ limit
        · rw [if_neg (Nat.not_le.mpr (Nat.lt_succ_of_le hroom))]
          exact (lookAt_ok hs hroom).mpr ⟨hcycles c List.mem_cons_self, rfl, rfl⟩
        · have hfull := Nat.lt_of_not_le hroom
          rw [if_pos (Nat.succ_le_of_lt hfull), lookAt, if_pos hfull]
          rfl
      rw [foldEach_cons, bind_of_ok hat, List.foldl_cons]
      exact ih fun d hd => hcycles d (List.mem_cons_of_mem _ hd)

/-- A scan that comes to the last `u32` with room left aborts there. -/
theorem scan_stuck (hs : Obeys layout s) {collected r : List ContributionRecord}
    {cycles : List Nat} (hlast : u32Max ∈ cycles)
    (hroom : collected.length + cycles.length ≤ limit + 1) :
    foldEach (lookAt g member limit) collected cycles env s ≠ .ok r t := by
  induction cycles generalizing collected with
  | nil => exact absurd hlast List.not_mem_nil
  | cons c cycles ih =>
      rw [List.length_cons] at hroom
      intro h
      rw [foldEach_cons, bind_ok] at h
      obtain ⟨b, u, hc, hrest⟩ := h
      obtain ⟨hlt, rfl, rfl⟩ := (lookAt_ok hs (by omega)).mp hc
      have hmem : u32Max ∈ cycles :=
        (List.mem_cons.mp hlast).resolve_left fun heq => Nat.lt_irrefl c (heq ▸ hlt)
      refine ih hmem ?_ hrest
      have hone : (contribAt s g c member).toList.length ≤ 1 := by
        cases contribAt s g c member <;> simp
      rw [List.length_append]
      omega

/-- The cycles a page looks at. -/
abbrev cyclesFrom (a : Nat) (grp : SaveData.Group) : List Nat :=
  List.range' a (grp.currentCycle + 1 - a)

theorem history_run (hgrp : groupAt s g = some grp) {a : Nat}
    (hpos : 1 ≤ limit) (hcap : limit ≤ 50) {page : List ContributionRecord × Bool} :
    getMemberContributionHistory g member a limit env s = .ok page t ↔
      ∃ r, foldEach (lookAt g member limit) [] (cyclesFrom a grp) env s = .ok r t ∧
        (r.take limit, decide (limit < r.length)) = page := by
  have hlimit : (if limit > 50 then 50 else if limit = 0 then 10 else limit) = limit := by
    rw [if_neg (Nat.not_lt.mpr hcap), if_neg (by omega)]
  have hcycles : (List.range (grp.currentCycle + 1 - a)).map (a + ·) = cyclesFrom a grp := by
    rw [cyclesFrom, List.range'_eq_map_range]
  rw [getMemberContributionHistory, getGroup, getOr_bind_ok]
  simp only [hgrp, Option.some.injEq, hlimit]
  constructor
  · rintro ⟨_, rfl, h⟩
    rw [hcycles, bind_ok] at h
    obtain ⟨r, u, hscan, hr⟩ := h
    obtain ⟨rfl, rfl⟩ := pure_ok.mp hr
    exact ⟨r, hscan, rfl⟩
  · rintro ⟨r, hscan, rfl⟩
    refine ⟨grp, rfl, ?_⟩
    rw [hcycles]
    exact bind_ok.mpr ⟨r, t, hscan, rfl⟩

/-- **ONE PAGE**: the first records from a cycle on, whichever cycles they are of. -/
theorem history_eq (hs : Obeys layout s) (hgrp : groupAt s g = some grp) {a : Nat}
    (hpos : 1 ≤ limit) (hcap : limit ≤ 50) (hlast : grp.currentCycle < u32Max) :
    getMemberContributionHistory g member a limit env s =
      .ok ((recordsOf s g member (cyclesFrom a grp)).take limit,
        decide (limit < (recordsOf s g member (cyclesFrom a grp)).length)) s := by
  rw [history_run hgrp hpos hcap]
  refine ⟨_, scan_eq hs fun c hc => ?_, ?_⟩
  · rw [List.mem_range'_1] at hc
    omega
  · have hone : (cyclesFrom a grp).foldl (fill (fun c => contribAt s g c member) (limit + 1)) [] =
        (recordsOf s g member (cyclesFrom a grp)).take (limit + 1) := foldl_fill ..
    rw [hone, List.take_take, Nat.min_eq_left (Nat.le_succ limit), List.length_take]
    congr 2
    rw [eq_iff_iff]
    omega

/-! ## Page after page -/

/-- What was given in the cycles of page `k`, were pages made of cycles. -/
abbrev window (s : State) (g : Nat) (member : Address) (limit : Nat) (grp : SaveData.Group)
    (k : Nat) : List ContributionRecord :=
  recordsOf s g member
    (List.range' (k * limit) (min limit (grp.currentCycle + 1 - k * limit)))

/-- The windows of `n` pages from the `k`-th on. -/
def windows (s : State) (g : Nat) (member : Address) (limit : Nat) (grp : SaveData.Group)
    (k n : Nat) : List (List ContributionRecord) :=
  (List.range' k n).map (window s g member limit grp)

theorem windows_succ {k n : Nat} :
    windows s g member limit grp k (n + 1) =
      window s g member limit grp k :: windows s g member limit grp (k + 1) n := by
  rw [windows, List.range'_succ, List.map_cons, ← windows]

/-- The cycles from a page on are its own and those from the next page on. -/
theorem cyclesFrom_split {k : Nat} :
    List.range' (k * limit) (min limit (grp.currentCycle + 1 - k * limit)) ++
      cyclesFrom ((k + 1) * limit) grp = cyclesFrom (k * limit) grp := by
  rw [cyclesFrom, cyclesFrom, Nat.succ_mul]
  by_cases hfull : limit ≤ grp.currentCycle + 1 - k * limit
  · rw [Nat.min_eq_left hfull, List.range'_append_1]
    congr 1
    omega
  · have hnone : grp.currentCycle + 1 - (k * limit + limit) = 0 := by omega
    rw [Nat.min_eq_right (Nat.le_of_not_le hfull), hnone]
    exact List.append_nil _

/-- The last page is the one of the current cycle. -/
theorem pages_end {n : Nat} (hpos : 1 ≤ limit) : n < (0 + (n / limit + 1)) * limit := by
  rw [Nat.zero_add]
  exact Nat.lt_mul_of_div_lt (Nat.lt_succ_self _) hpos

/-- The pages from the next one on end where they did. -/
theorem pages_next {k n c : Nat} (h : c < (k + (n + 1)) * limit) : c < (k + 1 + n) * limit := by
  rw [Nat.add_right_comm, Nat.add_assoc]
  exact h

/-- The windows from a page on hold the records from its first cycle on. -/
theorem windows_flatten {k n : Nat} (hn : grp.currentCycle < (k + n) * limit) :
    (windows s g member limit grp k n).flatten =
      recordsOf s g member (cyclesFrom (k * limit) grp) := by
  induction n generalizing k with
  | zero =>
      have hnone : grp.currentCycle + 1 - k * limit = 0 := Nat.sub_eq_zero_of_le hn
      rw [cyclesFrom, hnone]
      rfl
  | succ n ih =>
      have hrest := ih (k := k + 1) (pages_next hn)
      rw [windows_succ, List.flatten_cons, hrest, ← List.filterMap_append, cyclesFrom_split]

theorem window_short {k n : Nat} :
    ∀ w ∈ windows s g member limit grp k n, w.length ≤ limit := by
  intro w hw
  obtain ⟨j, -, rfl⟩ := List.mem_map.mp hw
  refine (List.length_filterMap_le ..).trans ?_
  rw [List.length_range']
  exact Nat.min_le_left ..

/-- The calls at every multiple of the limit, one page after the other. -/
theorem calls_iff (hs : Obeys layout s) (hgrp : groupAt s g = some grp) (hpos : 1 ≤ limit)
    (hcap : limit ≤ 50) (hlast : grp.currentCycle < u32Max) {k n : Nat}
    (hn : grp.currentCycle < (k + n) * limit) {pages : List (List ContributionRecord × Bool)} :
    List.Forall₂ (fun j page =>
        getMemberContributionHistory g member (j * limit) limit env s = .ok page s)
      (List.range' k n) pages ↔
      pages = windowPages limit (windows s g member limit grp k n) := by
  induction n generalizing k pages with
  | zero => exact List.forall₂_nil_left_iff
  | succ n ih =>
      have hflat : (windows s g member limit grp k (n + 1)).flatten =
          recordsOf s g member (cyclesFrom (k * limit) grp) := windows_flatten hn
      have hnext : grp.currentCycle < (k + 1 + n) * limit := pages_next hn
      rw [windows_succ] at hflat
      rw [windows_succ, List.range'_succ, List.forall₂_cons_left_iff, windowPages, hflat]
      constructor
      · rintro ⟨page, rest, hpage, hrest, rfl⟩
        rw [history_eq hs hgrp hpos hcap hlast] at hpage
        rw [← (Outcome.ok.inj hpage).1, (ih hnext).mp hrest]
      · rintro rfl
        exact ⟨_, _, history_eq hs hgrp hpos hcap hlast, (ih hnext).mpr rfl, rfl⟩

/-- The pages a reader gets, asking from cycle `0`, `limit`, `2 * limit`, … up to
    the current one, hold every record once and in order, and each says rightly
    whether a later one holds any. -/
def PagesAsDocumented (env : Env) (s : State) (g : Nat) (member : Address) (limit : Nat)
    (grp : SaveData.Group) : Prop :=
  ∃ pages, List.Forall₂ (fun k page =>
      getMemberContributionHistory g member (k * limit) limit env s = .ok page s)
      (List.range' 0 (grp.currentCycle / limit + 1)) pages ∧
    (pages.map Prod.fst).flatten = recordsOf s g member (List.range (grp.currentCycle + 1)) ∧
    Honest pages

/-- Who gave in a cycle gave in every cycle of the pages before. -/
def Steady (s : State) (g : Nat) (member : Address) (limit : Nat) (grp : SaveData.Group) : Prop :=
  ∀ m c, c ≤ grp.currentCycle → m / limit < c / limit →
    contribAt s g c member ≠ none → contribAt s g m member ≠ none

/-- A window is full when it is not cut off and its cycles were all given in. -/
theorem window_full_iff {k : Nat} :
    (window s g member limit grp k).length = limit ↔
      limit ≤ grp.currentCycle + 1 - k * limit ∧
        ∀ m, k * limit ≤ m → m < k * limit + limit → contribAt s g m member ≠ none := by
  have hle : (window s g member limit grp k).length ≤
      min limit (grp.currentCycle + 1 - k * limit) := by
    refine (List.length_filterMap_le ..).trans (Nat.le_of_eq ?_)
    rw [List.length_range']
  have hall : (window s g member limit grp k).length =
        min limit (grp.currentCycle + 1 - k * limit) ↔
      ∀ m ∈ List.range' (k * limit) (min limit (grp.currentCycle + 1 - k * limit)),
        (contribAt s g m member).isSome := by
    rw [← List.filterMap_length_eq_length, List.length_range']
  constructor
  · intro hfull
    have hcut : limit ≤ grp.currentCycle + 1 - k * limit := by omega
    refine ⟨hcut, fun m hlow hhigh => Option.isSome_iff_ne_none.mp ?_⟩
    rw [Nat.min_eq_left hcut] at hall
    exact hall.mp hfull m (List.mem_range'_1.mpr ⟨hlow, hhigh⟩)
  · rintro ⟨hcut, hgiven⟩
    rw [Nat.min_eq_left hcut] at hall
    refine hall.mpr fun m hm => Option.isSome_iff_ne_none.mpr ?_
    obtain ⟨hlow, hhigh⟩ := List.mem_range'_1.mp hm
    exact hgiven m hlow hhigh

/-- Solid windows are what a steady member leaves: by induction along the pages. -/
theorem solid_iff (hpos : 1 ≤ limit) {k n : Nat} (hn : grp.currentCycle < (k + n) * limit) :
    Solid limit (windows s g member limit grp k n) ↔
      ∀ m c, k * limit ≤ m → c ≤ grp.currentCycle → m / limit < c / limit →
        contribAt s g c member ≠ none → contribAt s g m member ≠ none := by
  induction n generalizing k with
  | zero =>
      refine ⟨fun _ m c hm hc hlt => ?_, fun _ => trivial⟩
      have hle : c ≤ m := (Nat.le_of_lt (Nat.lt_of_le_of_lt hc hn)).trans hm
      exact absurd hlt (Nat.not_lt.mpr (Nat.div_le_div_right hle))
  | succ n ih =>
      have hnext : grp.currentCycle < (k + 1 + n) * limit := pages_next hn
      have hmul : (k + 1) * limit = k * limit + limit := Nat.succ_mul k limit
      have htail : (windows s g member limit grp (k + 1) n).flatten = [] ↔
          ∀ c, (k + 1) * limit ≤ c → c ≤ grp.currentCycle → contribAt s g c member = none := by
        rw [windows_flatten hnext, List.filterMap_eq_nil_iff]
        refine forall_congr' fun c => ?_
        rw [List.mem_range'_1]
        constructor
        · intro h hlow hhigh
          exact h ⟨hlow, by omega⟩
        · intro h hc
          exact h hc.1 (by omega)
      rw [windows_succ]
      show (_ ∨ _) ∧ Solid limit _ ↔ _
      rw [ih hnext, htail, window_full_iff]
      constructor
      · rintro ⟨hhead, hrest⟩ m c hm hc hlt hgave
        by_cases hlater : (k + 1) * limit ≤ m
        · exact hrest m c hlater hc hlt hgave
        · -- the missed cycle is in the page itself, so the one given in is in a later one
          have hpage : k ≤ m / limit := (Nat.le_div_iff_mul_le hpos).mpr hm
          have hc' : (k + 1) * limit ≤ c := by
            refine (Nat.le_div_iff_mul_le hpos).mp ?_
            omega
          rcases hhead with ⟨-, hgiven⟩ | hnone
          · exact hgiven m hm (by omega)
          · exact absurd (hnone c hc' hc) hgave
      · intro h
        refine ⟨?_, fun m c hm => h m c (by omega)⟩
        -- given in later on, the page has to be full; otherwise nothing comes behind it
        by_cases hsome : ∃ c, (k + 1) * limit ≤ c ∧ c ≤ grp.currentCycle ∧ contribAt s g c member ≠ none
        · obtain ⟨c, hlow, hhigh, hgave⟩ := hsome
          refine Or.inl ⟨by omega, fun m hm hm' => h m c hm hhigh ?_ hgave⟩
          have hpage : m / limit < k + 1 := (Nat.div_lt_iff_lt_mul hpos).mpr (by omega)
          exact hpage.trans_le ((Nat.le_div_iff_mul_le hpos).mpr hlow)
        · refine Or.inr fun c hlow hhigh => ?_
          by_contra hgave
          exact hsome ⟨c, hlow, hhigh, hgave⟩

theorem steady_iff (hpos : 1 ≤ limit) :
    Steady s g member limit grp ↔
      Solid limit (windows s g member limit grp 0 (grp.currentCycle / limit + 1)) := by
  rw [solid_iff hpos (pages_end hpos)]
  refine forall₂_congr fun m c => ?_
  rw [Nat.zero_mul]
  exact ⟨fun h _ => h, fun h => h (Nat.zero_le m)⟩

/-- At the last `u32` the last page aborts on the step past it. -/
theorem last_page_aborts (hs : Obeys layout s) (hgrp : groupAt s g = some grp) (hpos : 1 ≤ limit)
    (hcap : limit ≤ 50) (hlast : grp.currentCycle = u32Max)
    {page : List ContributionRecord × Bool} :
    getMemberContributionHistory g member (grp.currentCycle / limit * limit) limit env s
      ≠ .ok page t := by
  intro h
  obtain ⟨r, hscan, -⟩ := (history_run hgrp hpos hcap).mp h
  have hdiv := Nat.div_add_mod' grp.currentCycle limit
  have hmod := Nat.mod_lt grp.currentCycle hpos
  refine scan_stuck hs ?_ ?_ hscan
  · rw [← hlast]
    exact List.mem_range'_1.mpr (by omega)
  · rw [List.length_range', List.length_nil]
    omega

/-- Below the last `u32` the pages are as documented for a steady member. -/
theorem pages_iff_steady (hs : Obeys layout s) (hgrp : groupAt s g = some grp) (hpos : 1 ≤ limit)
    (hcap : limit ≤ 50) (hlast : grp.currentCycle < u32Max) :
    PagesAsDocumented env s g member limit grp ↔ Steady s g member limit grp := by
  have hwhole : (windows s g member limit grp 0 (grp.currentCycle / limit + 1)).flatten =
      recordsOf s g member (List.range (grp.currentCycle + 1)) := by
    rw [windows_flatten (pages_end hpos), cyclesFrom, Nat.zero_mul, Nat.sub_zero,
      ← List.range_eq_range']
  have hcalls : ∀ pages : List (List ContributionRecord × Bool), List.Forall₂ (fun k page =>
        getMemberContributionHistory g member (k * limit) limit env s = .ok page s)
      (List.range' 0 (grp.currentCycle / limit + 1)) pages ↔
      pages = windowPages limit (windows s g member limit grp 0 (grp.currentCycle / limit + 1)) :=
    fun pages => calls_iff hs hgrp hpos hcap hlast (pages_end hpos)
  rw [steady_iff hpos, ← windowPages_iff hpos window_short, hwhole]
  constructor
  · rintro ⟨pages, hpages, hdoc⟩
    rw [(hcalls pages).mp hpages] at hdoc
    exact hdoc
  · intro hdoc
    exact ⟨_, (hcalls _).mpr rfl, hdoc⟩

/-- **WHEN THE PAGES ARE AS DOCUMENTED**: for a steady member, below the last
    `u32`.  A page runs on past a missed cycle into the cycles of the next page,
    which repeats what it took from there. -/
theorem history_pages_iff (hs : Obeys layout s) (hgrp : groupAt s g = some grp)
    (hu : grp.currentCycle ≤ u32Max) (hpos : 1 ≤ limit) (hcap : limit ≤ 50) :
    PagesAsDocumented env s g member limit grp ↔
      grp.currentCycle < u32Max ∧ Steady s g member limit grp := by
  by_cases hlast : grp.currentCycle < u32Max
  · rw [and_iff_right hlast]
    exact pages_iff_steady hs hgrp hpos hcap hlast
  · refine ⟨?_, fun h => absurd h.1 hlast⟩
    rintro ⟨pages, hcalls, -⟩
    have hanswered := ((List.forall₂_and_left _ _).mp (hcalls.imp fun _ page h =>
      And.intro (Exists.intro page h) h)).1
    have hmem : grp.currentCycle / limit ∈ List.range' 0 (grp.currentCycle / limit + 1) := by
      rw [← List.range_eq_range']
      exact List.mem_range.mpr (Nat.lt_succ_self _)
    obtain ⟨page, hpage⟩ := hanswered _ hmem
    exact absurd hpage
      (last_page_aborts hs hgrp hpos hcap (Nat.le_antisymm hu (Nat.le_of_not_lt hlast)))

/-! The first member of a group misses the first cycle. -/

/-- The second cycle has begun. -/
def secondCycle : Env := { trioEnv with timestamp := 1010 }

/-- Two members, a cycle without a contribution, then one by the first. -/
def missedCycle : List Step :=
  [.call trioEnv (.joinGroup 1 ⟨1⟩ none), .call trioEnv (.joinGroup 1 ⟨2⟩ none),
    .call trioEnv (.activateGroup 1 ⟨1⟩), .call secondCycle (.tryAdvanceCycle 1),
    .call secondCycle (.contributeWithProof 1 ⟨1⟩ 100)]

/-- Storage after them. -/
abbrev afterMissed : State := run missedCycle fundedOpen

theorem afterMissed_obeys : Obeys layout afterMissed :=
  exec_invariant_always (I := Obeys layout) obeys_apply fundedOpen_obeys missedCycle

/-- Asked for two records at a time, the member has one page, and it is right. -/
theorem history_pages_iff_two :
    ∃ grp, groupAt afterMissed 1 = some grp ∧ PagesAsDocumented trioEnv afterMissed 1 ⟨1⟩ 2 grp := by
  obtain ⟨grp, hgrp, hcycle⟩ : ∃ grp, groupAt afterMissed 1 = some grp ∧ grp.currentCycle = 1 :=
    ⟨_, rfl, rfl⟩
  refine ⟨grp, hgrp, (history_pages_iff afterMissed_obeys hgrp ?_ (by decide) (by decide)).mpr
    ⟨?_, fun m c hc hlt => ?_⟩⟩
  · rw [hcycle]
    decide
  · rw [hcycle]
    decide
  · exact absurd hlt (by omega)

/-- **ONE AT A TIME, TWICE**: the only contribution, of cycle `1`, is on the page
    from cycle `0` and again on the page from cycle `1`; neither says there are
    more. -/
theorem late_contribution_repeated :
    ∃ grp record, groupAt afterMissed 1 = some grp ∧ record.cycleNumber = 1 ∧
      getMemberContributionHistory 1 ⟨1⟩ 0 1 trioEnv afterMissed = .ok ([record], false) afterMissed ∧
      getMemberContributionHistory 1 ⟨1⟩ 1 1 trioEnv afterMissed = .ok ([record], false) afterMissed ∧
      ¬ PagesAsDocumented trioEnv afterMissed 1 ⟨1⟩ 1 grp := by
  obtain ⟨grp, hgrp, hcycle⟩ : ∃ grp, groupAt afterMissed 1 = some grp ∧ grp.currentCycle = 1 :=
    ⟨_, rfl, rfl⟩
  refine ⟨grp, _, hgrp, ?_, rfl, rfl, fun hdoc => ?_⟩
  · rfl
  · have hlast : grp.currentCycle < u32Max := by
      rw [hcycle]
      decide
    have hsteady := (pages_iff_steady afterMissed_obeys hgrp (by decide) (by decide) hlast).mp hdoc
    have hgave : contribAt afterMissed 1 1 ⟨1⟩ ≠ none := Option.isSome_iff_ne_none.mp rfl
    exact hsteady 0 1 (Nat.le_of_eq hcycle.symm) (by decide) hgave rfl

end SaveHistory
