import StellarSave.CompletionProofs
import StellarSave.DeadlineProofs

/-! # Views — what the contract answers without writing

    The read-only entry points (`contract.rs`, `milestones.rs`, `rating.rs`,
    `penalty.rs`, `search.rs`, `migration.rs`).  Each derives its answer from
    whichever entry is CHEAPEST to read, so two views of one fact are in general
    two different entries, and it takes a run to say whether they agree. -/

namespace SaveView

open HostProg Footprint TokenLedger SaveData SavePayout SaveRefund SaveAdmin
open SaveCompletion SaveDeadline SaveCall

/-! ## Groups and members -/

/-- `get_group`. -/
def getGroup (g : Nat) : SaveM Group := getOr (.grp g) .groupNotFound

/-- `is_member`. -/
def isMember (g : Nat) (member : Address) : SaveM Bool := do
  let _grp ← getGroup g
  has (.mbrProf g member)

/-- `list_groups_by_member`. -/
def listGroupsByMember (member : Address) : SaveM (List U64) := getD (.usrGrps member) []

/-- `get_member_count`. -/
def getMemberCount (g : Nat) : SaveM Nat := do
  let grp ← getGroup g
  pure grp.memberCount

/-- `get_token_config`. -/
def getTokenConfig (g : Nat) : SaveM TokenConfig := getOr (.grpTok g) .groupNotFound

/-- `is_token_allowed`: no list, no limits. -/
def isTokenAllowed (tok : Address) : SaveM Bool := do
  let allowed : Option (List Address) ← getOpt .alwdToks
  pure (match allowed with
    | some list => decide (tok ∈ list)
    | none => true)

/-- `get_members`. -/
def getMembers (g : Nat) : SaveM (List Address) := do
  let _grp ← getGroup g
  let roster : MemberMap ← getOr (.grpMbrs g) .groupNotFound
  pure roster.members

/-- `get_member`. -/
def getMember (g : Nat) (member : Address) : SaveM MemberProfile := do
  let _grp ← getGroup g
  getOr (.mbrProf g member) .notMember

/-- `is_complete`. -/
def isComplete (g : Nat) : SaveM Bool := do
  let grp ← getGroup g
  pure grp.isComplete

/-- `is_paused`. -/
def isPaused (g : Nat) : SaveM Bool := do
  let grp : Option Group ← getOpt (.grp g)
  pure (match grp with
    | some grp => grp.paused || decide (grp.status = .paused)
    | none => false)

/-- A page of a list. -/
def page {α : Type} (xs : List α) (offset limit : Nat) : List α := (xs.drop offset).take limit

/-- `get_group_members`: at most a hundred at a time. -/
def getGroupMembers (g offset limit : Nat) : SaveM (List Address) := do
  let _grp ← getGroup g
  let _end ← okOr (checkedU32 (offset + limit)) .overflow
  let roster : MemberMap ← getD (.grpMbrs g) ∅
  pure (page roster.members offset (min limit 100))

/-- `list_members`: at most twenty at a time. -/
def listMembers (g offset limit : Nat) : SaveM (List Address) := do
  let _grp ← getGroup g
  let roster : MemberMap ← getD (.grpMbrs g) ∅
  pure (page roster.members offset (saturatingU32 (offset + min limit 20) - offset))

/-- `get_group_member_count`. -/
def getGroupMemberCount (g : Nat) : SaveM Nat := do
  let _grp ← getGroup g
  let roster : MemberMap ← getD (.grpMbrs g) ∅
  pure roster.size

/-- `is_auto_contribute_enabled`. -/
def isAutoContributeEnabled (g : Nat) (member : Address) : SaveM Bool := do
  let exists_ ← has (.grp g)
  failIf (exists_ = false) .groupNotFound
  let isMember ← has (.mbrProf g member)
  failIf (isMember = false) .notMember
  getD (.mbrAuto g member) false

/-! ## Listings -/

/-- `get_total_groups` and `get_total_groups_created`: the last id handed out. -/
def getTotalGroups : SaveM Nat := do
  let last : U64 ← getD .cntNextG ⟨0⟩
  pure last.val

/-- The ids from `start` down to one. -/
def downFrom (start : Nat) : List Nat := (List.range start).reverse.map (· + 1)

/-- `list_groups`: newest first, archived ones left out, fifty at most. -/
def listGroups (cursor limit : Nat) (filter : Option GroupStatus) : SaveM (List Group) := do
  let last ← getTotalGroups
  foldEach (fun (groups : List Group) id =>
    if groups.length ≥ min limit 50 then pure groups else do
      let grp : Option Group ← getOpt (.grp id)
      onOption grp (pure groups) fun grp => do
        let archived : Bool ← getD (.grpArch id) false
        if archived = true then pure groups else
          onOption filter (pure (groups ++ [grp])) fun wanted => do
            let status : GroupStatus ← getD (.grpStat id) .pending
            pure (if status = wanted then groups ++ [grp] else groups))
    [] (downFrom (if cursor = 0 then last else cursor))

/-- `list_archived_groups`. -/
def listArchivedGroups (cursor limit : Nat) : SaveM (List Group) := do
  let last ← getTotalGroups
  foldEach (fun (groups : List Group) id =>
    if groups.length ≥ min limit 50 then pure groups else do
      let archived : Bool ← getD (.grpArch id) false
      if archived = false then pure groups else do
        let grp : Option Group ← getOpt (.grp id)
        pure (match grp with
          | some grp => groups ++ [grp]
          | none => groups))
    [] (downFrom (if cursor = 0 then last else cursor))

/-- `SortOrder`. -/
inductive SortOrder where
  | createdDesc
  | createdAsc
  | memberCountDesc
  | memberCountAsc
  deriving DecidableEq

/-- `SearchParams`. -/
structure SearchParams where
  status : Option GroupStatus
  minAmount : Option Int
  maxAmount : Option Int
  minMembers : Option Nat
  maxMembers : Option Nat
  cursor : Nat
  limit : Nat
  sort : SortOrder

/-- `SearchResult`. -/
structure SearchResult where
  groups : List Group
  nextCursor : Nat
  scanned : Nat

/-- `matches_filters`. -/
def matchesFilters (grp : Group) (params : SearchParams) : Bool :=
  params.status.all (fun status => decide (grp.status = status)) &&
    params.minAmount.all (fun least => decide (least ≤ grp.contributionAmount)) &&
    params.maxAmount.all (fun most => decide (grp.contributionAmount ≤ most)) &&
    params.minMembers.all (fun least => decide (least ≤ grp.memberCount)) &&
    params.maxMembers.all (fun most => decide (grp.memberCount ≤ most))

/-- One id of the search: a full page notes where to go on.  The step to the next
    id is checked arithmetic, upwards past the last `u64` it aborts. -/
def searchAt (params : SearchParams) (limit : Nat) (found : SearchResult) (id : Nat) :
    SaveM SearchResult :=
  if found.groups.length ≥ limit then
    pure { found with nextCursor := if found.nextCursor = 0 then id else found.nextCursor }
  else do
    let grp : Option Group ← getOpt (.grp id)
    let seen : SearchResult := { found with scanned := saturatingU32 (found.scanned + 1) }
    let found : SearchResult ← onOption grp (pure seen) fun grp => do
      let archived : Bool ← getD (.grpArch id) false
      pure (if archived = false ∧ matchesFilters grp params = true then
        { seen with groups := seen.groups ++ [grp] } else seen)
    let _next ← if params.sort = .createdAsc then unwrap (checkedU64 (id + 1)) else pure (id - 1)
    pure found

/-- Insert before the first group that should come later. -/
def insertBefore (before : Group → Group → Bool) (item : Group) : List Group → List Group
  | [] => [item]
  | grp :: rest => if before item grp then item :: grp :: rest else grp :: insertBefore before item rest

/-- `sort_by_member_count`: insertion sort, with no cursor to go on from. -/
def sortByMemberCount (groups : List Group) (descending : Bool) : SearchResult where
  groups := groups.foldl (fun sorted item => insertBefore (fun a b =>
    if descending = true then decide (a.memberCount > b.memberCount)
    else decide (a.memberCount < b.memberCount)) item sorted) []
  nextCursor := 0
  scanned := groups.length

/-- `search_groups`. -/
def searchGroups (params : SearchParams) : SaveM SearchResult := do
  let last ← getTotalGroups
  if last = 0 then pure ⟨[], 0, 0⟩ else do
    let limit := if params.limit = 0 ∨ params.limit > 50 then 50 else params.limit
    let ids := if params.sort = .createdAsc then
        let first := if params.cursor = 0 then 1 else params.cursor
        (List.range (last + 1 - first)).map (first + ·)
      else downFrom (if params.cursor = 0 then last else params.cursor)
    let found ← foldEach (searchAt params limit) ⟨[], 0, 0⟩ ids
    pure (match params.sort with
      | .memberCountDesc => sortByMemberCount found.groups true
      | .memberCountAsc => sortByMemberCount found.groups false
      | .createdDesc | .createdAsc => found)

/-- `get_group_rating`: how many ratings, their average in hundredths, their sum. -/
def getGroupRating (g : Nat) : SaveM (Nat × Nat × Nat) := do
  let exists_ ← has (.grp g)
  failIf (exists_ = false) .groupNotFound
  let agg : RatingAggregate ← getD (.grpRateA g) ⟨0, 0⟩
  let average ← if agg.ratingCount = 0 then pure 0 else do
      let scaled ← unwrap (checkedU64 (agg.totalStars * 100))
      pure (scaled / agg.ratingCount % (u32Max + 1))
  pure (agg.ratingCount, average, agg.totalStars)

/-- `get_member_rating`. -/
def getMemberRating (g : Nat) (member : Address) : SaveM (Option RatingEntry) := do
  let exists_ ← has (.grp g)
  failIf (exists_ = false) .groupNotFound
  getOpt (.grpRate g member)

/-! ## Payouts -/

/-- `is_payout_due`. -/
def isPayoutDue (g : Nat) : SaveM Bool := do
  let grp ← getGroup g
  if grp.status ≠ .active then pure false else do
    let pool ← getPoolInfoForGroup grp grp.currentCycle
    if pool.isCycleComplete = false then pure false else do
      let paid ← has (.payRecip g grp.currentCycle)
      pure (!paid)

/-- `get_payout_position`: the position is read as a whole profile. -/
def getPayoutPosition (g : Nat) (member : Address) : SaveM Nat := do
  let profile : MemberProfile ← getOr (.mbrPElig g member) .notMember
  pure profile.payoutPosition

/-- `validate_payout_recipient`. -/
def validatePayoutRecipient (g : Nat) (recipient : Address) : SaveM Bool := do
  let grp ← getGroup g
  let isMember ← has (.mbrProf g recipient)
  if isMember = false then pure false else do
    let position : Option U32 ← getOpt (.mbrPElig g recipient)
    onOption position (pure false) fun position =>
      if position.val ≠ grp.currentCycle then pure false else do
        let paid ← has (.payRecip g position.val)
        pure (!paid)

/-- `get_group_balance`: two counters, one subtraction. -/
def getGroupBalance (g : Nat) : SaveM Int := do
  let exists_ ← has (.grp g)
  failIf (exists_ = false) .groupNotFound
  let contributions : I128 ← getD (.grpBal g) ⟨0⟩
  let payouts : I128 ← getD (.grpPaid g) ⟨0⟩
  okOr (checkedI128 (contributions.val - payouts.val)) .overflow

/-- The payout records of the cycles before `current`, in order. -/
def payoutRecords (g current : Nat) : SaveM (List PayoutRecord) :=
  foldEach (fun (payouts : List PayoutRecord) cycle => do
    let record : Option PayoutRecord ← getOpt (.payout g cycle)
    pure (payouts ++ record.toList)) [] (List.range current)

/-- `get_payout_history_all`. -/
def getPayoutHistoryAll (g : Nat) : SaveM (List PayoutRecord) := do
  let grp ← getGroup g
  payoutRecords g grp.currentCycle

/-- `get_payout_history`. -/
def getPayoutHistory (g offset limit : Nat) : SaveM (List PayoutRecord) := do
  let grp ← getGroup g
  let _end ← okOr (checkedU32 (offset + limit)) .overflow
  let payouts ← payoutRecords g grp.currentCycle
  pure (page payouts offset limit)

/-- `get_member_payout`: the first record that names the member. -/
def getMemberPayout (g : Nat) (member : Address) : SaveM (Option PayoutRecord) := do
  let grp ← getGroup g
  let isMember ← has (.mbrProf g member)
  failIf (isMember = false) .notMember
  foldEach (fun (found : Option PayoutRecord) cycle =>
    onOption found
      (do
        let record : Option PayoutRecord ← getOpt (.payout g cycle)
        pure (record.filter fun record => decide (record.recipient = member)))
      fun record => pure (some record))
    none (List.range (grp.currentCycle + 1))

/-- `get_payout`. -/
def getPayout (g cycle : Nat) : SaveM PayoutRecord := do
  let _grp ← getGroup g
  getOr (.payout g cycle) .payoutFailed

/-- `PayoutScheduleEntry`. -/
structure PayoutScheduleEntry where
  recipient : Address
  cycle : Nat
  payoutDate : Nat

/-- One member of the schedule. -/
def scheduleMember (g : Nat) (grp : Group) (schedule : List PayoutScheduleEntry)
    (member : Address) : SaveM (List PayoutScheduleEntry) := do
  let position ← getPayoutPosition g member
  let span ← unwrap (checkedU64 (position * grp.cycleDuration))
  let start ← okOr (checkedU64 (grp.startedAt + span)) .overflow
  let date ← okOr (checkedU64 (start + grp.cycleDuration)) .overflow
  pure (schedule ++ [⟨member, position, date⟩])

/-- `get_payout_schedule`. -/
def getPayoutSchedule (g : Nat) : SaveM (List PayoutScheduleEntry) := do
  let grp ← getGroup g
  failIf (grp.started = false) .invalidState
  let roster : MemberMap ← getOr (.grpMbrs g) .groupNotFound
  foldEach (scheduleMember g grp) [] roster.members

/-- One member of the queue: whoever's own slot is paid is left out. -/
def queueMember (g maxMembers : Nat) (slots : List (Option Address)) (member : Address) :
    SaveM (List (Option Address)) := do
  let position : Option U32 ← getOpt (.mbrPElig g member)
  onOption position (pure slots) fun position => do
    let paid ← has (.payRecip g position.val)
    pure (if paid = true then slots
      else if position.val < maxMembers then slots.set position.val (some member) else slots)

/-- `get_payout_queue`: one slot for each position. -/
def getPayoutQueue (g : Nat) : SaveM (List Address) := do
  let grp ← getGroup g
  let roster : MemberMap ← getOr (.grpMbrs g) .groupNotFound
  let slots ← foldEach (queueMember g grp.maxMembers) (List.replicate grp.maxMembers none)
    roster.members
  pure (slots.filterMap id)

/-- `get_next_payout_cycle`: the end of the next cycle. -/
def getNextPayoutCycle (g : Nat) : SaveM Nat := do
  let grp ← getGroup g
  failIf (grp.started = false) .invalidState
  failIf (grp.isComplete = true) .invalidState
  let next ← okOr (checkedU32 (grp.currentCycle + 1)) .overflow
  let multiplier ← okOr (checkedU32 (next + 1)) .overflow
  let span ← okOr (checkedU64 (multiplier * grp.cycleDuration)) .overflow
  okOr (checkedU64 (grp.startedAt + span)) .overflow

/-! ## Contributions -/

/-- The thresholds a streak can cross. -/
def milestoneThresholds : List Nat := [5, 10, 20]

/-- The replay of one cycle: the streak, the last cycle (none after a gap), and
    the thresholds crossed so far with their cycles. -/
def replayStreak (replay : Nat × Option Nat × List (Nat × Nat)) (cycle : Nat)
    (contributed : Bool) : Nat × Option Nat × List (Nat × Nat) :=
  if contributed = true then
    let streak := if replay.2.1.all (fun last => decide (cycle = last + 1)) = true then
        saturatingU32 (replay.1 + 1) else 1
    (streak, some cycle, replay.2.2 ++
      (milestoneThresholds.filter fun n => decide (replay.1 < n ∧ n ≤ streak)).map (·, cycle))
  else (0, none, replay.2.2)

/-- `get_member_milestones`: thresholds with the cycle they were reached at. -/
def getMemberMilestones (g : Nat) (member : Address) : SaveM (List (Nat × Nat)) := do
  let grp ← getGroup g
  let isMember ← has (.mbrProf g member)
  failIf (isMember = false) .notMember
  let replay ← foldEach (fun replay cycle => do
    let contributed ← has (.contrib g cycle member)
    pure (replayStreak replay cycle contributed)) (0, none, [])
    (List.range (grp.currentCycle + 1))
  pure replay.2.2

/-- `get_contribution_status`. -/
def getContributionStatus (g cycle : Nat) : SaveM (List (Address × Bool)) := do
  let _grp ← getGroup g
  let roster : MemberMap ← getOr (.grpMbrs g) .groupNotFound
  foldEach (fun (status : List (Address × Bool)) member => do
    let contributed ← has (.contrib g cycle member)
    pure (status ++ [(member, contributed)])) [] roster.members

/-- `get_cycle_contributions`. -/
def getCycleContributions (g cycle : Nat) : SaveM (List ContributionRecord) := do
  let _grp ← getGroup g
  let roster : MemberMap ← getD (.grpMbrs g) ∅
  foldEach (fun (records : List ContributionRecord) member => do
    let record : Option ContributionRecord ← getOpt (.contrib g cycle member)
    pure (records ++ record.toList)) [] roster.members

/-- `get_member_contribution_history`: one record past the page tells that there
    are more. -/
def getMemberContributionHistory (g : Nat) (member : Address) (startCycle limit : Nat) :
    SaveM (List ContributionRecord × Bool) := do
  let grp ← getGroup g
  let pageLimit := if limit > 50 then 50 else if limit = 0 then 10 else limit
  let collected ← foldEach (fun (collected : List ContributionRecord) cycle =>
    if collected.length > pageLimit then pure collected else do
      let record : Option ContributionRecord ← getOpt (.contrib g cycle member)
      let _next ← unwrap (checkedU32 (cycle + 1))
      pure (collected ++ record.toList)) []
    ((List.range (grp.currentCycle + 1 - startCycle)).map (startCycle + ·))
  pure (collected.take pageLimit, decide (collected.length > pageLimit))

/-! ## Statistics and versions -/

/-- The answer of `get_group_statistics`. -/
structure GroupStatistics where
  completionRate : Nat
  totalContributions : Int
  totalDistributed : Int
  memberCount : Nat
  valueLocked : Int

/-- `get_group_statistics`: what was distributed is not looked up, it is the
    number of cycles times the pool of a FULL group. -/
def getGroupStatistics (g : Nat) : SaveM GroupStatistics := do
  let grp ← getGroup g
  let rate ← if grp.maxMembers > 0 then do
      let scaled ← unwrap (checkedU32 (grp.currentCycle * 100))
      pure (scaled / grp.maxMembers)
    else pure 0
  let contributions ← foldEach (fun (total : Int) cycle => do
    let cycleTotal : I128 ← getD (.cycTotal g cycle) ⟨0⟩
    pure (saturatingI128 (total + cycleTotal.val))) 0 (List.range grp.currentCycle)
  let pool ← okOr (checkedI128 (grp.contributionAmount * grp.maxMembers)) .overflow
  let distributed ← okOr (checkedI128 (grp.currentCycle * pool)) .overflow
  pure ⟨rate, contributions, distributed, grp.memberCount,
    saturatingI128 (contributions - distributed)⟩

/-- The answer of `get_member_statistics`. -/
structure MemberStatistics where
  cyclesContributed : Nat
  totalContributed : Int
  onTimeRate : Nat
  receivedPayout : Bool

/-- `get_member_statistics`: the payout is looked for in every cycle. -/
def getMemberStatistics (g : Nat) (member : Address) : SaveM MemberStatistics := do
  let grp ← getGroup g
  let isMember ← has (.mbrProf g member)
  failIf (isMember = false) .notMember
  let paid ← foldEach (fun (paid : Nat × Int) cycle => do
    let record : Option ContributionRecord ← getOpt (.contrib g cycle member)
    pure (match record with
      | some record => (paid.1 + 1, saturatingI128 (paid.2 + record.amount))
      | none => paid)) (0, 0) (List.range grp.currentCycle)
  let received ← foldEach (fun (received : Bool) cycle =>
    if received = true then pure true else do
      let recipient : Option Address ← getOpt (.payRecip g cycle)
      pure (decide (recipient = some member))) false (List.range (grp.currentCycle + 1))
  pure ⟨paid.1, paid.2, if grp.currentCycle > 0 then paid.1 * 100 / grp.currentCycle else 100,
    received⟩

/-- `get_penalty_history`. -/
def getPenaltyHistory (g : Nat) (member : Address) : SaveM (List PenaltyRecord) :=
  getD (.penHi g member) []

/-- `get_penalty_state`. -/
def getPenaltyState (g : Nat) (member : Address) : SaveM MemberPenaltyState :=
  getD (.penSt g member) ⟨0, 0⟩

/-- `get_storage_version`. -/
def getStorageVersion : SaveM Nat := do
  let version : U32 ← getD .storeVer ⟨1⟩
  pure version.val

/-- `get_contract_version`. -/
def getContractVersion : SaveM Nat := do
  let version : U32 ← getD .conVer ⟨0⟩
  pure version.val

/-! ## Every view -/

/-- The read-only entry points with their arguments. -/
inductive View where
  | getGroup (g : Nat)
  | getMemberCount (g : Nat)
  | getTokenConfig (g : Nat)
  | isTokenAllowed (tok : Address)
  | getMembers (g : Nat)
  | getMember (g : Nat) (member : Address)
  | isMember (g : Nat) (member : Address)
  | isComplete (g : Nat)
  | isPaused (g : Nat)
  | getGroupMembers (g offset limit : Nat)
  | listMembers (g offset limit : Nat)
  | getGroupMemberCount (g : Nat)
  | isAutoContributeEnabled (g : Nat) (member : Address)
  | listGroupsByMember (member : Address)
  | getTotalGroups
  | listGroups (cursor limit : Nat) (filter : Option GroupStatus)
  | listArchivedGroups (cursor limit : Nat)
  | searchGroups (params : SearchParams)
  | getGroupRating (g : Nat)
  | getMemberRating (g : Nat) (member : Address)
  | hasReceivedPayout (g : Nat) (member : Address)
  | isPayoutDue (g : Nat)
  | getPayoutPosition (g : Nat) (member : Address)
  | validatePayoutRecipient (g : Nat) (recipient : Address)
  | getTotalPaidOut (g : Nat)
  | getGroupBalance (g : Nat)
  | getPayoutHistory (g offset limit : Nat)
  | getPayoutHistoryAll (g : Nat)
  | getMemberPayout (g : Nat) (member : Address)
  | getPayout (g cycle : Nat)
  | getPayoutSchedule (g : Nat)
  | getPayoutQueue (g : Nat)
  | getNextPayoutCycle (g : Nat)
  | getMemberMilestones (g : Nat) (member : Address)
  | getContributionStatus (g cycle : Nat)
  | getCycleContributions (g cycle : Nat)
  | isCycleComplete (g cycle : Nat)
  | getMissedContributions (g cycle : Nat)
  | getContributionDeadline (g cycle : Nat)
  | getMembersNeedingReminder (g cycle : Nat)
  | getMemberTotalContributions (g : Nat) (member : Address)
  | getMemberContributionHistory (g : Nat) (member : Address) (startCycle limit : Nat)
  | getGroupStatistics (g : Nat)
  | getMemberStatistics (g : Nat) (member : Address)
  | getPenaltyHistory (g : Nat) (member : Address)
  | getPenaltyState (g : Nat) (member : Address)
  | getStorageVersion
  | getContractVersion

/-- The program a view runs, its answer dropped. -/
def View.body : View → SaveM Unit
  | getGroup g => quietly (SaveView.getGroup g)
  | getMemberCount g => quietly (SaveView.getMemberCount g)
  | getTokenConfig g => quietly (SaveView.getTokenConfig g)
  | isTokenAllowed tok => quietly (SaveView.isTokenAllowed tok)
  | getMembers g => quietly (SaveView.getMembers g)
  | getMember g member => quietly (SaveView.getMember g member)
  | isMember g member => quietly (SaveView.isMember g member)
  | isComplete g => quietly (SaveView.isComplete g)
  | isPaused g => quietly (SaveView.isPaused g)
  | getGroupMembers g offset limit => quietly (SaveView.getGroupMembers g offset limit)
  | listMembers g offset limit => quietly (SaveView.listMembers g offset limit)
  | getGroupMemberCount g => quietly (SaveView.getGroupMemberCount g)
  | isAutoContributeEnabled g member => quietly (SaveView.isAutoContributeEnabled g member)
  | listGroupsByMember member => quietly (SaveView.listGroupsByMember member)
  | getTotalGroups => quietly SaveView.getTotalGroups
  | listGroups cursor limit filter => quietly (SaveView.listGroups cursor limit filter)
  | listArchivedGroups cursor limit => quietly (SaveView.listArchivedGroups cursor limit)
  | searchGroups params => quietly (SaveView.searchGroups params)
  | getGroupRating g => quietly (SaveView.getGroupRating g)
  | getMemberRating g member => quietly (SaveView.getMemberRating g member)
  | hasReceivedPayout g member => quietly (SaveRefund.hasReceivedPayout g member)
  | isPayoutDue g => quietly (SaveView.isPayoutDue g)
  | getPayoutPosition g member => quietly (SaveView.getPayoutPosition g member)
  | validatePayoutRecipient g recipient => quietly (SaveView.validatePayoutRecipient g recipient)
  | getTotalPaidOut g => quietly (SavePayout.getTotalPaidOut g)
  | getGroupBalance g => quietly (SaveView.getGroupBalance g)
  | getPayoutHistory g offset limit => quietly (SaveView.getPayoutHistory g offset limit)
  | getPayoutHistoryAll g => quietly (SaveView.getPayoutHistoryAll g)
  | getMemberPayout g member => quietly (SaveView.getMemberPayout g member)
  | getPayout g cycle => quietly (SaveView.getPayout g cycle)
  | getPayoutSchedule g => quietly (SaveView.getPayoutSchedule g)
  | getPayoutQueue g => quietly (SaveView.getPayoutQueue g)
  | getNextPayoutCycle g => quietly (SaveView.getNextPayoutCycle g)
  | getMemberMilestones g member => quietly (SaveView.getMemberMilestones g member)
  | getContributionStatus g cycle => quietly (SaveView.getContributionStatus g cycle)
  | getCycleContributions g cycle => quietly (SaveView.getCycleContributions g cycle)
  | isCycleComplete g cycle => quietly (SaveCompletion.isCycleComplete g cycle)
  | getMissedContributions g cycle => quietly (SaveCompletion.getMissedContributions g cycle)
  | getContributionDeadline g cycle => quietly (SaveDeadline.getContributionDeadline g cycle)
  | getMembersNeedingReminder g cycle => quietly (SaveAdmin.getMembersNeedingReminder g cycle)
  | getMemberTotalContributions g member =>
      quietly (SaveRefund.getMemberTotalContributions g member)
  | getMemberContributionHistory g member startCycle limit =>
      quietly (SaveView.getMemberContributionHistory g member startCycle limit)
  | getGroupStatistics g => quietly (SaveView.getGroupStatistics g)
  | getMemberStatistics g member => quietly (SaveView.getMemberStatistics g member)
  | getPenaltyHistory g member => quietly (SaveView.getPenaltyHistory g member)
  | getPenaltyState g member => quietly (SaveView.getPenaltyState g member)
  | getStorageVersion => quietly SaveView.getStorageVersion
  | getContractVersion => quietly SaveView.getContractVersion

/-! ## Answers -/

section Members

variable {env : Env} {s t : State} {g : Nat} {member : Address}

theorem isMember_ok {b : Bool} :
    isMember g member env s = .ok b t ↔
      ((∃ grp, groupAt s g = some grp) ∧ (s.persistent (.mbrProf g member)).isSome = b) ∧ s = t := by
  simp [isMember, getGroup, bind_ok, and_assoc]

theorem listGroupsByMember_ok {ids : List U64} :
    listGroupsByMember member env s = .ok ids t ↔
      (TypedAt (List U64) s.persistent (.usrGrps member) ∧
        (readAt (List U64) s.persistent (.usrGrps member)).getD [] = ids) ∧ s = t :=
  getD_ok

end Members

end SaveView
