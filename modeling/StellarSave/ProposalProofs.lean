import Mathlib.Data.List.Infix
import StellarSave.NumeralProofs
import StellarSave.TraceProofs

/-! # Proposals of the governors — votes that are kept

    `routes/governance.ts`.  A proposal is stored under the millisecond it was made in,
    and each governor votes on it once.  It passes with the first vote that leaves more
    for than against and at least three recorded; it expires with the first vote that
    comes too late.  A handler runs to its end before the next begins, and reads the
    clock more than once. -/

namespace Proposals

open Trace Units Numeral

inductive ProposalStatus where
  | active
  | passed
  | rejected
  | executed
  | expired
  deriving DecidableEq, Repr

/-- `status`, as it stands in a text. -/
def ProposalStatus.text : ProposalStatus → String
  | .active => "active"
  | .passed => "passed"
  | .rejected => "rejected"
  | .executed => "executed"
  | .expired => "expired"

structure Vote where
  voter : JsString
  support : Bool
  votedAt : Nat
  deriving DecidableEq, Repr

structure Proposal where
  id : JsString
  title : JsString
  description : JsString
  proposer : JsString
  status : ProposalStatus
  votesFor : Nat
  votesAgainst : Nat
  votes : List Vote
  votingEndsAt : Nat
  timelockEndsAt : Option Nat
  createdAt : Nat
  executedAt : Option Nat
  deriving DecidableEq, Repr

structure AppError where
  code : String
  message : String
  status : Nat
  deriving DecidableEq, Repr

/-- The map `proposals`: what is stored under an id has that id. -/
abbrev Store := List Proposal

def hour : Nat := 60 * 60 * 1000

/-- The proposals there from the start. -/
def seeds (now : Nat) : Store :=
  [ { id := lit "prop-001"
      title := lit "Increase max group size to 30"
      description := lit "Raise the protocol-level MAX_MEMBERS constant from 20 to 30 to allow larger community circles."
      proposer := lit "GABC1234567890ABCDEF"
      status := .active, votesFor := 3, votesAgainst := 1, votes := []
      votingEndsAt := now + 2 * 24 * hour, timelockEndsAt := none
      createdAt := now - 12 * hour, executedAt := none },
    { id := lit "prop-002"
      title := lit "Lower minimum contribution to 0.05 XLM"
      description := lit "Reduce the minimum contribution floor so that low-income communities can participate."
      proposer := lit "GDEF0987654321FEDCBA"
      status := .passed, votesFor := 5, votesAgainst := 2, votes := []
      votingEndsAt := now - 24 * hour, timelockEndsAt := some (now + 48 * hour)
      createdAt := now - 5 * 24 * hour, executedAt := none },
    { id := lit "prop-003"
      title := lit "Enable insurance pool by default"
      description := lit "All new groups should opt-in to the insurance pool automatically. Group creators can still disable it."
      proposer := lit "GABC1234567890ABCDEF"
      status := .executed, votesFor := 7, votesAgainst := 1, votes := []
      votingEndsAt := now - 10 * 24 * hour, timelockEndsAt := none
      createdAt := now - 15 * 24 * hour, executedAt := some (now - 8 * 24 * hour) } ]

/-- `proposals.get`. -/
def get (id : JsString) (store : Store) : Option Proposal := store.find? fun p => decide (p.id = id)

/-- `proposals.set`, under the id of the proposal. -/
def set (p : Proposal) (store : Store) : Store :=
  if store.any fun q => decide (q.id = p.id) then
    store.map fun q => if q.id = p.id then p else q
  else store ++ [p]

/-- `raw` is `GOVERNOR_ADDRESSES`. -/
def getGovernors (raw : Option JsString) : List JsString :=
  (((raw.getD []).splitOn (unit ',')).map trim).filter (fun a => decide (a ≠ [])) ++
    [lit "GABC1234567890ABCDEF", lit "GDEF0987654321FEDCBA"]

def isGovernor (raw : Option JsString) (address : JsString) : Bool :=
  decide (address ∈ getGovernors raw)

/-- `POST /proposals`; `idAt`, `endsFrom` and `createdAt` are what the clock said. -/
def create (raw title description proposer : Option JsString) (idAt endsFrom createdAt : Nat)
    (store : Store) : Except AppError Proposal × Store :=
  if title.getD [] = [] ∨ description.getD [] = [] ∨ proposer.getD [] = [] then
    (.error ⟨"MISSING_FIELDS", "title, description, and proposer are required.", 400⟩, store)
  else if isGovernor raw (proposer.getD []) = false then
    (.error ⟨"NOT_A_GOVERNOR", "Only governors may create proposals.", 403⟩, store)
  else
    let proposal : Proposal :=
      { id := lit "prop-" ++ decimal idAt, title := title.getD [], description := description.getD []
        proposer := proposer.getD [], status := .active, votesFor := 0, votesAgainst := 0, votes := []
        votingEndsAt := endsFrom + 7 * 24 * hour, timelockEndsAt := none
        createdAt := createdAt, executedAt := none }
    (.ok proposal, set proposal store)

/-- The vote is recorded. -/
def record (voter : JsString) (support : Bool) (votedAt : Nat) (p : Proposal) : Proposal :=
  { p with
    votes := p.votes ++ [⟨voter, support, votedAt⟩]
    votesFor := p.votesFor + if support then 1 else 0
    votesAgainst := p.votesAgainst + if support then 0 else 1 }

/-- Simple majority: more for than against, and at least three votes. -/
def settle (decidedAt : Nat) (p : Proposal) : Proposal :=
  if p.votesAgainst < p.votesFor ∧ 3 ≤ p.votes.length then
    { p with status := .passed, timelockEndsAt := some (decidedAt + 48 * hour) }
  else p

/-- `POST /proposals/:id/vote`; `checkedAt`, `votedAt` and `decidedAt` are what the clock said. -/
def vote (raw : Option JsString) (id : JsString) (voter : Option JsString) (support : Option Bool)
    (checkedAt votedAt decidedAt : Nat) (store : Store) : Except AppError Proposal × Store :=
  match get id store with
  | none => (.error ⟨"PROPOSAL_NOT_FOUND", "Proposal not found", 404⟩, store)
  | some proposal =>
      match support with
      | none => (.error ⟨"MISSING_FIELDS", "voter and support (boolean) are required.", 400⟩, store)
      | some support =>
          let voter := voter.getD []
          if voter = [] then
            (.error ⟨"MISSING_FIELDS", "voter and support (boolean) are required.", 400⟩, store)
          else if isGovernor raw voter = false then
            (.error ⟨"NOT_A_GOVERNOR", "Only governors may vote.", 403⟩, store)
          else if proposal.status ≠ .active then
            (.error ⟨"VOTING_CLOSED", "Voting is closed (status: " ++ proposal.status.text ++ ").", 400⟩,
              store)
          else if proposal.votingEndsAt < checkedAt then
            (.error ⟨"VOTING_PERIOD_ENDED", "Voting period has ended.", 400⟩,
              set { proposal with status := .expired } store)
          else if proposal.votes.any fun v => decide (v.voter = voter) then
            (.error ⟨"ALREADY_VOTED", "You have already voted on this proposal.", 409⟩, store)
          else
            let counted := settle decidedAt (record voter support votedAt proposal)
            (.ok counted, set counted store)

/-- A request that may write. -/
inductive Request where
  | create (title description proposer : Option JsString) (idAt endsFrom createdAt : Nat)
  | vote (id : JsString) (voter : Option JsString) (support : Option Bool)
      (checkedAt votedAt decidedAt : Nat)
  deriving DecidableEq, Repr

def step (raw : Option JsString) : Request → Store → Store
  | .create title description proposer idAt endsFrom createdAt, store =>
      (create raw title description proposer idAt endsFrom createdAt store).2
  | .vote id voter support checkedAt votedAt decidedAt, store =>
      (vote raw id voter support checkedAt votedAt decidedAt store).2

/-! ## The map -/

section Map

variable {store : Store} {p q : Proposal} {id : JsString}

/-- A proposal is found under its own id. -/
theorem get_id (h : get id store = some p) : p ∈ store ∧ p.id = id :=
  ⟨List.mem_of_find?_eq_some h, by simpa using List.find?_some h⟩

/-- What is in the store after a write was in it, or was written. -/
theorem mem_set (h : p ∈ set q store) : p = q ∨ p ∈ store := by
  rw [set] at h
  by_cases hany : (store.any fun r => decide (r.id = q.id)) = true
  · rw [if_pos hany] at h
    obtain ⟨r, hr, rfl⟩ := List.mem_map.mp h
    by_cases hid : r.id = q.id
    · exact Or.inl (if_pos hid)
    · right
      rw [if_neg hid]
      exact hr
  · rw [if_neg hany] at h
    rcases List.mem_append.mp h with hold | hnew
    · exact Or.inr hold
    · exact Or.inl (List.mem_singleton.mp hnew)

/-- What was written is found. -/
theorem get_set_self : get q.id (set q store) = some q := by
  rw [set]
  by_cases hany : (store.any fun r => decide (r.id = q.id)) = true
  · rw [if_pos hany]
    induction store with
    | nil => exact nomatch hany
    | cons r store ih =>
        rw [List.map_cons, get, List.find?_cons]
        by_cases hid : r.id = q.id
        · rw [if_pos hid]
          simp
        · rw [if_neg hid]
          rw [List.any_cons] at hany
          simp only [hid, decide_false, Bool.false_or] at hany ⊢
          exact ih hany
  · rw [if_neg hany, get, List.find?_append]
    have hnone : store.find? (fun r => decide (r.id = q.id)) = none := by
      rw [List.find?_eq_none]
      intro r hr hid
      exact hany (List.any_eq_true.mpr ⟨r, hr, hid⟩)
    rw [hnone]
    simp

/-- And under another id what was there before. -/
theorem get_set_other (hid : q.id ≠ id) : get id (set q store) = get id store := by
  rw [set]
  by_cases hany : (store.any fun r => decide (r.id = q.id)) = true
  · rw [if_pos hany]
    clear hany
    induction store with
    | nil => rfl
    | cons r store ih =>
        rw [List.map_cons, get, List.find?_cons, get, List.find?_cons]
        by_cases hr : r.id = q.id
        · rw [if_pos hr, hr]
          simp only [hid, decide_false]
          exact ih
        · rw [if_neg hr]
          cases decide (r.id = id) with
          | true => rfl
          | false => exact ih
  · rw [if_neg hany, get, List.find?_append]
    have hnone : [q].find? (fun r => decide (r.id = id)) = none := by
      rw [List.find?_singleton]
      simp [hid]
    rw [hnone, Option.or_none]
    rfl

end Map

/-! ## What a request can do -/

section Requests

variable {raw : Option JsString} {store : Store} {p : Proposal} {id voter : JsString} {support : Bool}
  {checkedAt votedAt decidedAt : Nat}

/-- More are for it than against it, and three votes are recorded. -/
def Majority (p : Proposal) : Prop := p.votesAgainst < p.votesFor ∧ 3 ≤ p.votes.length

/-- A request to create stores nothing, or a proposal without votes under its millisecond. -/
theorem create_cases (raw title description proposer : Option JsString) (idAt endsFrom createdAt : Nat)
    (store : Store) :
    (create raw title description proposer idAt endsFrom createdAt store).2 = store ∨
      ∃ p, p.id = lit "prop-" ++ decimal idAt ∧ p.status = .active ∧ p.votes = [] ∧
        p.votesFor = 0 ∧ p.votesAgainst = 0 ∧
        (create raw title description proposer idAt endsFrom createdAt store).2 = set p store := by
  rw [create]
  by_cases hmissing : title.getD [] = [] ∨ description.getD [] = [] ∨ proposer.getD [] = []
  · rw [if_pos hmissing]
    exact Or.inl rfl
  rw [if_neg hmissing]
  by_cases hgov : isGovernor raw (proposer.getD []) = false
  · rw [if_pos hgov]
    exact Or.inl rfl
  · rw [if_neg hgov]
    exact Or.inr ⟨_, rfl, rfl, rfl, rfl, rfl, rfl⟩

/-- A request to vote changes an active proposal only: a late one closes it, a first one of
    a governor is counted. -/
theorem vote_cases (raw : Option JsString) (id : JsString) (voter : Option JsString)
    (support : Option Bool) (checkedAt votedAt decidedAt : Nat) (store : Store) :
    (vote raw id voter support checkedAt votedAt decidedAt store).2 = store ∨
      ∃ p, get id store = some p ∧ p.status = .active ∧
        ((p.votingEndsAt < checkedAt ∧
            (vote raw id voter support checkedAt votedAt decidedAt store).2 =
              set { p with status := .expired } store) ∨
          ∃ who side, checkedAt ≤ p.votingEndsAt ∧ isGovernor raw who = true ∧
            (∀ v ∈ p.votes, v.voter ≠ who) ∧
            (vote raw id voter support checkedAt votedAt decidedAt store).2 =
              set (settle decidedAt (record who side votedAt p)) store) := by
  rw [vote]
  -- nothing is found, or a proposal whose vote may be refused at each check
  cases hget : get id store with
  | none => exact Or.inl rfl
  | some p =>
      cases support with
      | none => exact Or.inl rfl
      | some side =>
          dsimp only
          by_cases hmissing : voter.getD [] = []
          · rw [if_pos hmissing]
            exact Or.inl rfl
          rw [if_neg hmissing]
          by_cases hgov : isGovernor raw (voter.getD []) = false
          · rw [if_pos hgov]
            exact Or.inl rfl
          rw [if_neg hgov]
          by_cases hstatus : p.status = .active
          · rw [if_neg (not_not_intro hstatus)]
            by_cases hlate : p.votingEndsAt < checkedAt
            · rw [if_pos hlate]
              exact Or.inr ⟨p, rfl, hstatus, Or.inl ⟨hlate, rfl⟩⟩
            rw [if_neg hlate]
            by_cases hvoted : (p.votes.any fun v => decide (v.voter = voter.getD [])) = true
            · rw [if_pos hvoted]
              exact Or.inl rfl
            rw [if_neg hvoted]
            refine Or.inr ⟨p, rfl, hstatus, Or.inr ⟨voter.getD [], side, Nat.le_of_not_lt hlate,
              Bool.eq_true_of_not_eq_false hgov, ?_, rfl⟩⟩
            intro v hv hwho
            exact hvoted (List.any_eq_true.mpr ⟨v, hv, decide_eq_true hwho⟩)
          · rw [if_pos hstatus]
            exact Or.inl rfl

/-- What a vote does not touch. -/
def asked (p : Proposal) : JsString × JsString × JsString × JsString × Nat × Nat :=
  (p.id, p.title, p.description, p.proposer, p.votingEndsAt, p.createdAt)

/-- To settle a proposal leaves what it asks as it is. -/
@[simp] theorem settle_asked : asked (settle decidedAt p) = asked p := by
  rw [settle]
  split <;> rfl

/-- And its id. -/
@[simp] theorem settle_id : (settle decidedAt p).id = p.id := congrArg Prod.fst settle_asked

/-- And the votes. -/
@[simp] theorem settle_votes : (settle decidedAt p).votes = p.votes := by
  rw [settle]
  split <;> rfl

/-- And the tally for it. -/
@[simp] theorem settle_votesFor : (settle decidedAt p).votesFor = p.votesFor := by
  rw [settle]
  split <;> rfl

/-- And the one against. -/
@[simp] theorem settle_votesAgainst : (settle decidedAt p).votesAgainst = p.votesAgainst := by
  rw [settle]
  split <;> rfl

/-- A proposal passes exactly where it has a majority. -/
theorem settle_status (p : Proposal) (decidedAt : Nat) (hactive : p.status = .active) :
    (settle decidedAt p).status = .passed ∧ Majority (settle decidedAt p) ∨
      (settle decidedAt p).status = .active ∧ ¬ Majority (settle decidedAt p) := by
  by_cases hmajority : p.votesAgainst < p.votesFor ∧ 3 ≤ p.votes.length
  · rw [settle, if_pos hmajority]
    exact Or.inl ⟨rfl, hmajority⟩
  · rw [settle, if_neg hmajority]
    exact Or.inr ⟨hactive, hmajority⟩

end Requests

/-! ## The tallies -/

/-- What the seeds say of an id before a vote is recorded. -/
def initial (now : Nat) (id : JsString) : Nat × Nat :=
  match get id (seeds now) with
  | some p => (p.votesFor, p.votesAgainst)
  | none => (0, 0)

/-- The tallies are the recorded votes of governors, one for each, above what a seed came
    with; what is open has no majority, and what the votes passed has one. -/
structure Sound (raw : Option JsString) (now : Nat) (p : Proposal) : Prop where
  governors : ∀ v ∈ p.votes, isGovernor raw v.voter = true
  once : (p.votes.map Vote.voter).Nodup
  votesFor : p.votesFor = (initial now p.id).1 + p.votes.countP Vote.support
  votesAgainst : p.votesAgainst = (initial now p.id).2 + p.votes.countP fun v => !v.support
  decided : p ∈ seeds now ∨ p.status = .passed ∧ Majority p ∨
    (p.status = .active ∨ p.status = .expired) ∧ ¬ Majority p

section Tallies

variable {raw : Option JsString} {now : Nat} {store : Store} {p : Proposal}

/-- No millisecond is written like a seed. -/
theorem initial_created (now n : Nat) : initial now (lit "prop-" ++ decimal n) = (0, 0) := by
  have hne : ∀ ds : JsString, value ds = n → decimal (value ds) ≠ ds →
      lit "prop-" ++ ds ≠ lit "prop-" ++ decimal n := by
    intro ds hvalue hds heq
    rw [← hvalue] at heq
    exact hds (List.append_cancel_left heq).symm
  -- decimals have no leading zeros, so no number is spelt like a seed's
  have hseed : ∀ ds : JsString, decimal (value ds) ≠ ds → lit "prop-" ++ ds ≠ lit "prop-" ++ decimal n := by
    intro ds hds heq
    have hdecimal := List.append_cancel_left heq
    have hvalue : value ds = n := by
      rw [hdecimal, decimal, value_digits (Nat.lt_succ_self n)]
    exact hne ds hvalue hds heq
  have h1 : lit "prop-001" ≠ lit "prop-" ++ decimal n := hseed (lit "001") (by decide)
  have h2 : lit "prop-002" ≠ lit "prop-" ++ decimal n := hseed (lit "002") (by decide)
  have h3 : lit "prop-003" ≠ lit "prop-" ++ decimal n := hseed (lit "003") (by decide)
  have hget : get (lit "prop-" ++ decimal n) (seeds now) = none := by
    rw [get, List.find?_eq_none]
    intro p hp hid
    replace hid := of_decide_eq_true hid
    simp only [seeds, List.mem_cons, List.not_mem_nil, or_false] at hp
    -- the three seeds, one by one
    rcases hp with rfl | rfl | rfl
    · exact h1 hid
    · exact h2 hid
    · exact h3 hid
  rw [initial, hget]

/-- The proposals the server starts with have no votes and a tally of none. -/
theorem seeds_sound (hp : p ∈ seeds now) : Sound raw now p := by
  have hp' := hp
  simp only [seeds, List.mem_cons, List.not_mem_nil, or_false] at hp'
  have hvotes : p.votes = [] := by
    rcases hp' with rfl | rfl | rfl <;> rfl
  have hinitial : initial now p.id = (p.votesFor, p.votesAgainst) := by
    rcases hp' with rfl | rfl | rfl <;> rfl
  refine ⟨?_, ?_, ?_, ?_, Or.inl hp⟩
  · rw [hvotes]
    exact fun v hv => absurd hv List.not_mem_nil
  · rw [hvotes]
    exact List.nodup_nil
  · rw [hvotes, hinitial]
    rfl
  · rw [hvotes, hinitial]
    rfl

/-- The proposals that are open to a vote have no majority. -/
theorem Sound.open_ (h : Sound raw now p) (hactive : p.status = .active) : ¬ Majority p := by
  rcases h.decided with hseed | ⟨hpassed, -⟩ | ⟨-, hminor⟩
  · simp only [seeds, List.mem_cons, List.not_mem_nil, or_false] at hseed
    rcases hseed with rfl | rfl | rfl
    · rintro ⟨-, hvotes⟩
      exact absurd (show 3 ≤ 0 from hvotes) (by decide)
    · exact nomatch hactive
    · exact nomatch hactive
  · rw [hactive] at hpassed
    exact nomatch hpassed
  · exact hminor

/-- A proposal that runs out keeps its votes. -/
theorem Sound.expire (h : Sound raw now p) (hactive : p.status = .active) :
    Sound raw now { p with status := .expired } :=
  ⟨h.governors, h.once, h.votesFor, h.votesAgainst, Or.inr (Or.inr ⟨Or.inr rfl, h.open_ hactive⟩)⟩

/-- The vote of a governor who has not voted yet keeps the tallies true. -/
theorem Sound.count (h : Sound raw now p) (hactive : p.status = .active) {voter : JsString}
    (hgov : isGovernor raw voter = true) (hnew : ∀ v ∈ p.votes, v.voter ≠ voter) (support : Bool)
    (votedAt decidedAt : Nat) :
    Sound raw now (settle decidedAt (record voter support votedAt p)) := by
  have hrecord : (record voter support votedAt p).votes = p.votes ++ [⟨voter, support, votedAt⟩] := rfl
  refine ⟨?_, ?_, ?_, ?_, ?_⟩
  -- every voter is a governor, the new one too
  · intro v hv
    rw [settle_votes, hrecord] at hv
    rcases List.mem_append.mp hv with hold | hadded
    · exact h.governors v hold
    · rw [List.mem_singleton.mp hadded]
      exact hgov
  -- and votes once
  · rw [settle_votes, hrecord, List.map_append, List.nodup_append]
    refine ⟨h.once, List.nodup_singleton _, ?_⟩
    intro a ha b hb
    obtain ⟨v, hv, rfl⟩ := List.mem_map.mp ha
    rw [List.mem_singleton.mp hb]
    exact hnew v hv
  -- the tally of the side voted for grows by one
  · rw [settle_votesFor, settle_id, settle_votes, hrecord, List.countP_append, ← Nat.add_assoc]
    show p.votesFor + _ = (initial now p.id).1 + _ + _
    rw [h.votesFor]
    cases support <;> rfl
  · rw [settle_votesAgainst, settle_id, settle_votes, hrecord, List.countP_append, ← Nat.add_assoc]
    show p.votesAgainst + _ = (initial now p.id).2 + _ + _
    rw [h.votesAgainst]
    cases support <;> rfl
  -- the proposal passes, or stays open for want of votes
  · rcases settle_status (record voter support votedAt p) decidedAt hactive with
      hpassed | ⟨hopen, hminor⟩
    · exact Or.inr (Or.inl hpassed)
    · exact Or.inr (Or.inr ⟨Or.inl hopen, hminor⟩)

/-- One request keeps every proposal sound. -/
theorem step_sound (e : Request) (h : ∀ p ∈ store, Sound raw now p) :
    ∀ p ∈ step raw e store, Sound raw now p := by
  intro p hp
  cases e with
  | create title description proposer idAt endsFrom createdAt =>
      rcases create_cases raw title description proposer idAt endsFrom createdAt store with
        hsame | ⟨q, hid, hactive, hvotes, hfor, hagainst, hset⟩
      · rw [step, hsame] at hp
        exact h p hp
      · rw [step, hset] at hp
        rcases mem_set hp with rfl | hold
        · refine ⟨?_, ?_, ?_, ?_, Or.inr (Or.inr ⟨Or.inl hactive, ?_⟩)⟩
          · rw [hvotes]
            exact fun v hv => absurd hv List.not_mem_nil
          · rw [hvotes]
            exact List.nodup_nil
          · rw [hvotes, hfor, hid, initial_created]
            rfl
          · rw [hvotes, hagainst, hid, initial_created]
            rfl
          · rintro ⟨hmore, -⟩
            rw [hfor] at hmore
            exact Nat.not_lt_zero _ hmore
        · exact h p hold
  | vote id voter support checkedAt votedAt decidedAt =>
      rcases vote_cases raw id voter support checkedAt votedAt decidedAt store with
        hsame | ⟨q, hget, hactive, ⟨-, hset⟩ | ⟨who, side, -, hgov, hnew, hset⟩⟩
      · rw [step, hsame] at hp
        exact h p hp
      · rw [step, hset] at hp
        rcases mem_set hp with rfl | hold
        · exact (h q (get_id hget).1).expire hactive
        · exact h p hold
      · rw [step, hset] at hp
        rcases mem_set hp with rfl | hold
        · exact (h q (get_id hget).1).count hactive hgov hnew side votedAt decidedAt
        · exact h p hold

end Tallies

/-- **THE TALLIES ARE TRUE**: after any requests, every proposal counts the votes that are
    recorded for it, of distinct governors, and it has passed exactly when they make a
    majority — the proposals of the start apart, which come with votes of their own. -/
theorem tallies_true (raw : Option JsString) (now : Nat) (requests : List Request) :
    ∀ p ∈ exec (step raw) requests (seeds now), Sound raw now p :=
  exec_invariant_always (I := fun store : Store => ∀ p ∈ store, Sound raw now p)
    (fun e _ h => step_sound e h) (fun _ hp => seeds_sound hp) requests

/-! ## What is recorded stays -/

/-- `q` is what became of `p`. -/
structure Grown (p q : Proposal) : Prop where
  asked : asked q = asked p
  votes : p.votes <+: q.votes
  closed : p.status ≠ .active → q = p

/-- It is not made in the millisecond that the id names. -/
def Spares (id : JsString) : Request → Prop
  | .create _ _ _ idAt _ _ => lit "prop-" ++ decimal idAt ≠ id
  | .vote .. => True

/-- It comes when the vote has ended. -/
def Late (ends : Nat) : Request → Prop
  | .create .. => True
  | .vote _ _ _ checkedAt _ _ => ends < checkedAt

section Recorded

variable {raw : Option JsString} {store : Store} {p q r : Proposal} {id : JsString} {e : Request}

/-- No vote is a growth. -/
theorem Grown.refl (p : Proposal) : Grown p p := ⟨rfl, List.prefix_rfl, fun _ => rfl⟩

/-- Growths add up. -/
theorem Grown.trans (h : Grown p q) (h' : Grown q r) : Grown p r := by
  refine ⟨h'.asked.trans h.asked, h.votes.trans h'.votes, ?_⟩
  intro hclosed
  have hq := h.closed hclosed
  rw [← hq] at hclosed ⊢
  exact h'.closed hclosed

/-- One request, seen from one proposal. -/
theorem step_get (raw : Option JsString) (hspare : Spares id e) (hget : get id store = some p) :
    ∃ q, get id (step raw e store) = some q ∧ Grown p q ∧
      (Late p.votingEndsAt e → q = p ∨ p.status = .active ∧ q = { p with status := .expired }) := by
  -- a creation with another id leaves this proposal where it is
  cases e with
  | create title description proposer idAt endsFrom createdAt =>
      refine ⟨p, ?_, Grown.refl p, fun _ => Or.inl rfl⟩
      rcases create_cases raw title description proposer idAt endsFrom createdAt store with
        hsame | ⟨q, hid, -, -, -, -, hset⟩
      · rw [step, hsame]
        exact hget
      · rw [step, hset, get_set_other (hid.trans_ne hspare)]
        exact hget
  | vote other voter support checkedAt votedAt decidedAt =>
      rcases vote_cases raw other voter support checkedAt votedAt decidedAt store with
        hsame | ⟨q, hq, hactive, hwrites⟩
      · rw [step, hsame]
        exact ⟨p, hget, Grown.refl p, fun _ => Or.inl rfl⟩
      by_cases hid : other = id
      · -- the proposal that is voted on
        obtain rfl := hid
        obtain rfl := Option.some.inj (hget.symm.trans hq)
        have hpid := (get_id hget).2
        rcases hwrites with ⟨-, hset⟩ | ⟨who, side, hintime, -, -, hset⟩
        · refine ⟨{ p with status := .expired }, ?_, ⟨rfl, List.prefix_rfl, ?_⟩,
            fun _ => Or.inr ⟨hactive, rfl⟩⟩
          · rw [step, hset, ← hpid]
            exact get_set_self (q := { p with status := .expired })
          · exact fun hclosed => absurd hactive hclosed
        · refine ⟨settle decidedAt (record who side votedAt p), ?_, ⟨settle_asked, ?_, ?_⟩, ?_⟩
          · rw [step, hset, ← hpid]
            have hid : (settle decidedAt (record who side votedAt p)).id = p.id := settle_id
            exact hid ▸ get_set_self
          · rw [settle_votes]
            exact List.prefix_append _ _
          · exact fun hclosed => absurd hactive hclosed
          · exact fun hlate => absurd hintime (Nat.not_le_of_lt hlate)
      · refine ⟨p, ?_, Grown.refl p, fun _ => Or.inl rfl⟩
        have hqid : q.id ≠ id := fun h => hid ((get_id hq).2.symm.trans h)
        rcases hwrites with ⟨-, hset⟩ | ⟨who, side, -, -, -, hset⟩
        · rw [step, hset, get_set_other (q := { q with status := .expired }) hqid]
          exact hget
        · rw [step, hset, get_set_other (q := settle decidedAt (record who side votedAt q))
            (settle_id.trans_ne hqid)]
          exact hget

end Recorded

/-- **WHAT IS RECORDED STAYS**: along any requests, none of which makes a proposal in the
    millisecond of this one, it keeps its text and its recorded votes; once closed it does
    not change; and when its time is over nothing happens to it but that it expires. -/
theorem votes_kept (raw : Option JsString) (store : Store) (id : JsString) (p : Proposal)
    (hget : get id store = some p) (requests : List Request)
    (hspare : ∀ e ∈ requests, Spares id e) :
    ∃ q, get id (exec (step raw) requests store) = some q ∧ Grown p q ∧
      ((∀ e ∈ requests, Late p.votingEndsAt e) →
        q = p ∨ p.status = .active ∧ q = { p with status := .expired }) := by
  induction requests generalizing store p with
  | nil => exact ⟨p, hget, Grown.refl p, fun _ => Or.inl rfl⟩
  | cons e requests ih =>
      obtain ⟨q, hq, hgrown, hlate⟩ := step_get raw (hspare e List.mem_cons_self) hget
      obtain ⟨r, hr, hgrown', hlate'⟩ := ih (step raw e store) q hq
        fun e' he' => hspare e' (List.mem_cons_of_mem e he')
      refine ⟨r, hr, hgrown.trans hgrown', ?_⟩
      intro hall
      have hends : q.votingEndsAt = p.votingEndsAt :=
        congrArg (fun a => a.2.2.2.2.1) hgrown.asked
      have hrest := hlate' fun e' he' => hends ▸ hall e' (List.mem_cons_of_mem e he')
      rcases hlate (hall e List.mem_cons_self) with rfl | ⟨hactive, rfl⟩
      · exact hrest
      · rcases hrest with hsame | ⟨hopen, -⟩
        · exact Or.inr ⟨hactive, hsame⟩
        · exact nomatch hopen

/-- A vote of one of the two governors, and what came after it: the same one again, the
    other, and one that is late. -/
def voted : Store :=
  step none (.vote (lit "prop-001") (some (lit "GABC1234567890ABCDEF")) (some true) 1 1 1) (seeds 0)

def after : List Request :=
  [.vote (lit "prop-001") (some (lit "GABC1234567890ABCDEF")) (some false) 2 2 2,
    .create (some (lit "a")) (some (lit "b")) (some (lit "GDEF0987654321FEDCBA")) 7 7 7,
    .vote (lit "prop-001") (some (lit "GDEF0987654321FEDCBA")) (some false) 3 3 3,
    .vote (lit "prop-001") (some (lit "GDEF0987654321FEDCBA")) (some false) 200000000 200000000 200000000]

/-- In the example one vote goes through. -/
theorem voted_once : ((get (lit "prop-001") voted).map fun p => p.votes.length) = some 1 := by
  decide

/-- The proposal with that vote is one of the run's. -/
theorem tallies_true_voted : ∃ p ∈ exec (step none)
    [.vote (lit "prop-001") (some (lit "GABC1234567890ABCDEF")) (some true) 1 1 1] (seeds 0),
    p.votes.length = 1 ∧ Sound none 0 p := by
  obtain ⟨p, hp, hlength⟩ := Option.map_eq_some_iff.mp voted_once
  have hin : p ∈ voted := List.mem_of_find?_eq_some hp
  exact ⟨p, hin, hlength, tallies_true none 0
    [.vote (lit "prop-001") (some (lit "GABC1234567890ABCDEF")) (some true) 1 1 1] p hin⟩

/-- It is still there after the requests that follow. -/
theorem votes_kept_instance : ∃ p q, get (lit "prop-001") voted = some p ∧
    get (lit "prop-001") (exec (step none) after voted) = some q ∧ p.votes.length = 1 ∧ Grown p q := by
  obtain ⟨p, hp, hlength⟩ := Option.map_eq_some_iff.mp voted_once
  have hspare : ∀ e ∈ after, Spares (lit "prop-001") e := by
    intro e he
    simp only [after, List.mem_cons, List.not_mem_nil, or_false] at he
    rcases he with rfl | rfl | rfl | rfl
    · trivial
    · exact (by decide : lit "prop-" ++ decimal 7 ≠ lit "prop-001")
    · trivial
    · trivial
  obtain ⟨q, hq, hgrown, -⟩ := votes_kept none voted (lit "prop-001") p hp after hspare
  exact ⟨p, q, hp, hq, hlength, hgrown⟩

end Proposals
