import StellarSave.PoolProofs
import StellarSave.TraceProofs

/-! # Session — refresh tokens, their rotation and their revocation

    A rotation finds the token's row, marks it used and creates its successor in
    three steps at the database; a revocation is one `updateMany`, after a find of
    its own where a raw token names the session.  Between any two steps other
    calls run.  Two rotations of one token that both find it unused succeed both,
    and a revocation misses the successor a rotation has yet to create; along the
    runs with neither, a token is rotated once, a family has one live token and a
    finished revocation leaves none. -/

namespace Session

open Trace

/-- A row of the table.  `since` is not in it: the number of revocations that had
    finished when the call that created the row began. -/
structure RefreshToken where
  tokenHash : String
  walletAddress : String
  familyId : Nat
  used : Bool
  revokedAt : Option Nat
  expiresAt : Nat
  since : Nat
  deriving DecidableEq, Repr

/-- The rows an `updateMany` is for. -/
inductive Scope where
  | family (familyId : Nat)
  | wallet (walletAddress : String)
  deriving DecidableEq, Repr

def Scope.Covers : Scope → RefreshToken → Prop
  | .family familyId, row => row.familyId = familyId
  | .wallet walletAddress, row => row.walletAddress = walletAddress

instance (scope : Scope) (row : RefreshToken) : Decidable (scope.Covers row) := by
  cases scope <;> exact inferInstanceAs (Decidable (_ = _))

/-- A token neither used nor revoked. -/
def Live (row : RefreshToken) : Prop := row.used = false ∧ row.revokedAt = none

instance (row : RefreshToken) : Decidable (Live row) := inferInstanceAs (Decidable (_ ∧ _))

/-- Where a call stands.  A rotation past its find holds the row it found. -/
inductive Call where
  | rotateFind (rawToken : String)
  | rotateRevoke (record : RefreshToken)
  | rotateMark (record : RefreshToken) (since : Nat)
  | rotateCreate (record : RefreshToken) (since : Nat)
  | sessionFind (rawToken : String)
  | sessionRevoke (familyId : Nat)
  | allRevoke (walletAddress : String)
  | rotated (accessToken refreshToken : String)
  | revoked
  | thrown (error : String)
  deriving DecidableEq, Repr

/-- The database, the calls and the clock, the families named so far, and the
    record kept of the tokens rotated and of the reuse detections and
    `revokeAllSessions` calls finished. -/
structure State where
  rows : List RefreshToken
  calls : List Call
  now : Nat
  families : Nat
  rotated : List String
  revocations : List Scope

def start : State :=
  { rows := [], calls := [], now := 0, families := 0, rotated := [], revocations := [] }

inductive Event where
  | issueRefreshToken (walletAddress raw : String)
  | rotateRefreshToken (rawToken : String)
  | revokeSession (rawToken : String)
  | revokeAllSessions (walletAddress : String)
  | step (k : Nat) (raw : String)
  | pass (ms : Nat)
  deriving DecidableEq, Repr

def findUnique (tokenHash : String) (rows : List RefreshToken) : Option RefreshToken :=
  rows.find? fun row => row.tokenHash = tokenHash

/-- `update` of the one row with the hash. -/
def markUsed (tokenHash : String) (rows : List RefreshToken) : List RefreshToken :=
  rows.map fun row => if row.tokenHash = tokenHash then { row with used := true } else row

def updateMany (scope : Scope) (now : Nat) (rows : List RefreshToken) : List RefreshToken :=
  rows.map fun row =>
    if scope.Covers row ∧ row.revokedAt = none then { row with revokedAt := some now } else row

section
variable (hashToken issueJwt : String → String) (tokenExpiresAt : Nat → Nat)

/-- `create`: the hash of a token is unique in the table. -/
def create (raw walletAddress : String) (familyId since : Nat) (s : State) :
    Option (List RefreshToken) :=
  match findUnique (hashToken raw) s.rows with
  | some _ => none
  | none =>
      let row := { tokenHash := hashToken raw, walletAddress, familyId, used := false,
                   revokedAt := none, expiresAt := tokenExpiresAt s.now, since }
      some (s.rows ++ [row])

/-- What a rotation does with the row it has found. -/
def found (record : RefreshToken) (s : State) : Call :=
  if record.revokedAt.isSome then .thrown "Refresh token has been revoked."
  else if record.expiresAt < s.now then .thrown "Refresh token has expired."
  else if record.used then .rotateRevoke record
  else .rotateMark record s.revocations.length

/-- One step of a call: the state and where the call stands after it. -/
def advance (raw : String) (s : State) : Call → State × Call
  | .rotateFind rawToken =>
      match findUnique (hashToken rawToken) s.rows with
      | none => (s, .thrown "Invalid refresh token.")
      | some record => (s, found record s)
  | .rotateRevoke record =>
      ({ s with rows := updateMany (.family record.familyId) s.now s.rows,
                revocations := s.revocations ++ [.family record.familyId] },
        .thrown "Refresh token reuse detected. All sessions invalidated.")
  | .rotateMark record since =>
      ({ s with rows := markUsed record.tokenHash s.rows }, .rotateCreate record since)
  | .rotateCreate record since =>
      match create hashToken tokenExpiresAt raw record.walletAddress record.familyId since s with
      | none => (s, .thrown "Unique constraint failed")
      | some rows =>
          ({ s with rows, rotated := s.rotated ++ [record.tokenHash] },
            .rotated (issueJwt record.walletAddress) raw)
  | .sessionFind rawToken =>
      match findUnique (hashToken rawToken) s.rows with
      | none => (s, .revoked)
      | some record => (s, .sessionRevoke record.familyId)
  | .sessionRevoke familyId =>
      ({ s with rows := updateMany (.family familyId) s.now s.rows }, .revoked)
  | .allRevoke walletAddress =>
      ({ s with rows := updateMany (.wallet walletAddress) s.now s.rows,
                revocations := s.revocations ++ [.wallet walletAddress] }, .revoked)
  | .rotated accessToken refreshToken => (s, .rotated accessToken refreshToken)
  | .revoked => (s, .revoked)
  | .thrown error => (s, .thrown error)

def step : Event → State → State
  | .issueRefreshToken walletAddress raw, s =>
      match create hashToken tokenExpiresAt raw walletAddress s.families s.revocations.length s with
      | none => s
      | some rows => { s with rows, families := s.families + 1 }
  | .rotateRefreshToken rawToken, s => { s with calls := s.calls ++ [.rotateFind rawToken] }
  | .revokeSession rawToken, s => { s with calls := s.calls ++ [.sessionFind rawToken] }
  | .revokeAllSessions walletAddress, s => { s with calls := s.calls ++ [.allRevoke walletAddress] }
  | .step k raw, s =>
      match s.calls[k]? with
      | none => s
      | some c =>
          let (t, c') := advance hashToken issueJwt tokenExpiresAt raw s c
          { t with calls := s.calls.set k c' }
  | .pass ms, s => { s with now := s.now + ms }

end

-- ── Calls and the rows they hold ──────────────────────────────────────────────

/-- The row a rotation past its find holds. -/
def Call.held : Call → Option (RefreshToken × Nat)
  | .rotateMark record since => some (record, since)
  | .rotateCreate record since => some (record, since)
  | _ => none

/-- Counts the calls that hold a row of a kind. -/
def holding (p : RefreshToken → Bool) (c : Call) : Nat :=
  match c.held with
  | some (record, _) => if p record then 1 else 0
  | none => 0

def ofToken (tokenHash : String) (row : RefreshToken) : Bool := row.tokenHash = tokenHash

def ofFamily (familyId : Nat) (row : RefreshToken) : Bool := row.familyId = familyId

/-- A call that holds no record counts for none. -/
theorem holding_none {c : Call} (h : c.held = none) (p : RefreshToken → Bool) : holding p c = 0 := by
  rw [holding, h]

/-- A call that holds one counts once, if it is one of those counted. -/
theorem holding_some {c : Call} {record : RefreshToken} {since : Nat}
    (h : c.held = some (record, since)) (p : RefreshToken → Bool) :
    holding p c = if p record then 1 else 0 := by
  rw [holding, h]

/-- The calls after a step that lets none hold a new row. -/
structure Fewer (cs ds : List Call) : Prop where
  mem : ∀ d ∈ ds, d.held ≠ none → d ∈ cs
  total : ∀ p, Pool.total (holding p) ds ≤ Pool.total (holding p) cs

/-- As many as before are fewer in the wide sense. -/
theorem Fewer.refl (cs : List Call) : Fewer cs cs := ⟨fun _ hd _ => hd, fun _ => Nat.le_refl _⟩

/-- A new call holds nothing yet. -/
theorem Fewer.append {cs : List Call} {c : Call} (h : c.held = none) : Fewer cs (cs ++ [c]) := by
  refine ⟨fun d hd hheld => ?_, fun p => ?_⟩
  · rcases List.mem_append.mp hd with hd | hd
    · exact hd
    · exact absurd (List.mem_singleton.mp hd ▸ h) hheld
  · rw [Pool.total_append, Pool.total_cons, Pool.total_nil, holding_none h]
    exact Nat.le_refl _

/-- A call that lets go of its record makes them fewer. -/
theorem Fewer.set {cs : List Call} {k : Nat} {b c : Call} (hk : cs[k]? = some b)
    (h : c.held = none) : Fewer cs (cs.set k c) := by
  refine ⟨fun d hd hheld => ?_, fun p => ?_⟩
  · rcases Pool.mem_set hd with rfl | hd
    · exact absurd h hheld
    · exact hd
  · have htotal := Pool.total_set (holding p) hk c
    rw [holding_none h] at htotal
    omega

-- ── What a step can do ────────────────────────────────────────────────────────

/-- A rotation finds a token live while no other rotation holds it, and a reuse
    detection or `revokeAllSessions` revokes while no rotation holds one of its
    tokens. -/
def Exclusive (hashToken : String → String) : Event → State → Prop
  | .step k _, s =>
      match s.calls[k]? with
      | some (.rotateFind rawToken) =>
          ∀ record, findUnique (hashToken rawToken) s.rows = some record →
            found record s = .rotateMark record s.revocations.length →
            ∀ d ∈ s.calls, ∀ q, d.held = some q → q.1.tokenHash ≠ record.tokenHash
      | some (.rotateRevoke record) =>
          ∀ d ∈ s.calls, ∀ q, d.held = some q → ¬ (Scope.family record.familyId).Covers q.1
      | some (.allRevoke walletAddress) =>
          ∀ d ∈ s.calls, ∀ q, d.held = some q → ¬ (Scope.wallet walletAddress).Covers q.1
      | _ => True
  | _, _ => True

/-- The changes a step can make when it is exclusive. -/
inductive Change (s : State) : State → Prop where
  | rest {calls : List Call} {now : Nat} (hcalls : Fewer s.calls calls) :
      Change s { s with calls, now }
  | issue {row : RefreshToken} (hfamily : row.familyId = s.families)
      (hsince : row.since = s.revocations.length)
      (hfresh : ∀ q ∈ s.rows, q.tokenHash ≠ row.tokenHash) :
      Change s { s with rows := s.rows ++ [row], families := s.families + 1 }
  | take {k : Nat} {c : Call} {record : RefreshToken} (hk : s.calls[k]? = some c)
      (hc : c.held = none) (hrow : record ∈ s.rows) (hlive : Live record)
      (halone : ∀ d ∈ s.calls, ∀ q, d.held = some q → q.1.tokenHash ≠ record.tokenHash) :
      Change s { s with calls := s.calls.set k (.rotateMark record s.revocations.length) }
  | mark {k : Nat} {record : RefreshToken} {since : Nat}
      (hk : s.calls[k]? = some (.rotateMark record since)) :
      Change s { s with rows := markUsed record.tokenHash s.rows,
                        calls := s.calls.set k (.rotateCreate record since) }
  | create {k : Nat} {record row : RefreshToken} {since : Nat} {c : Call}
      (hk : s.calls[k]? = some (.rotateCreate record since)) (hc : c.held = none)
      (hfamily : row.familyId = record.familyId)
      (hwallet : row.walletAddress = record.walletAddress) (hsince : row.since = since)
      (hfresh : ∀ q ∈ s.rows, q.tokenHash ≠ row.tokenHash) :
      Change s { s with rows := s.rows ++ [row], calls := s.calls.set k c,
                        rotated := s.rotated ++ [record.tokenHash] }
  | revoke {scope : Scope} {calls : List Call} (hcalls : Fewer s.calls calls) :
      Change s { s with rows := updateMany scope s.now s.rows, calls }
  | finish {scope : Scope} {calls : List Call} (hcalls : Fewer s.calls calls)
      (hnone : ∀ d ∈ s.calls, ∀ q, d.held = some q → ¬ scope.Covers q.1) :
      Change s { s with rows := updateMany scope s.now s.rows, calls,
                        revocations := s.revocations ++ [scope] }

section
variable {hashToken issueJwt : String → String} {tokenExpiresAt : Nat → Nat}

/-- A created row is at the end, unused and unrevoked, with the hash of its own token. -/
theorem create_spec {raw walletAddress : String} {familyId since : Nat} {s : State}
    {rows : List RefreshToken}
    (h : create hashToken tokenExpiresAt raw walletAddress familyId since s = some rows) :
    ∃ row : RefreshToken, rows = s.rows ++ [row] ∧ row.walletAddress = walletAddress ∧ row.familyId = familyId
      ∧ row.since = since ∧ ∀ q ∈ s.rows, q.tokenHash ≠ row.tokenHash := by
  rw [create] at h
  cases hfind : findUnique (hashToken raw) s.rows with
  | some q => simp [hfind] at h
  | none =>
      simp only [hfind, Option.some.injEq] at h
      refine ⟨_, h.symm, rfl, rfl, rfl, fun q hq heq => ?_⟩
      have hnot := List.find?_eq_none.mp hfind q hq
      exact hnot (decide_eq_true heq)

/-- A rotation goes on with a live row alone. -/
theorem found_cases (record : RefreshToken) (s : State) :
    (found record s).held = none
      ∨ Live record ∧ found record s = .rotateMark record s.revocations.length := by
  rw [found]
  split
  · exact Or.inl rfl
  · next hrevoked =>
      split
      · exact Or.inl rfl
      · split
        · exact Or.inl rfl
        · next hused => exact Or.inr ⟨⟨by simpa using hused, by simpa using hrevoked⟩, rfl⟩

/-- Every exclusive step makes one of the changes. -/
theorem step_change {e : Event} {s : State} (hex : Exclusive hashToken e s) :
    Change s (step hashToken issueJwt tokenExpiresAt e s) := by
  cases e with
  | issueRefreshToken walletAddress raw =>
      rw [step]
      cases hcreate : create hashToken tokenExpiresAt raw walletAddress s.families
          s.revocations.length s with
      | none => exact .rest (.refl s.calls)
      | some rows =>
          obtain ⟨row, rfl, -, hfamily, hsince, hfresh⟩ := create_spec hcreate
          exact .issue hfamily hsince hfresh
  | rotateRefreshToken rawToken => exact .rest (.append rfl)
  | revokeSession rawToken => exact .rest (.append rfl)
  | revokeAllSessions walletAddress => exact .rest (.append rfl)
  | pass ms => exact .rest (.refl s.calls)
  -- a call goes on by one of its awaits
  | step k raw =>
      simp only [step]
      cases hk : s.calls[k]? with
      | none => exact .rest (.refl s.calls)
      | some c =>
          simp only [Exclusive, hk] at hex
          cases c with
          | rotateFind rawToken =>
              simp only [advance]
              cases hfind : findUnique (hashToken rawToken) s.rows with
              | none => exact .rest (.set hk rfl)
              | some record =>
                  rcases found_cases record s with hheld | ⟨hlive, hfound⟩
                  · exact .rest (.set hk hheld)
                  · simp only [hfound]
                    exact .take hk rfl (List.mem_of_find?_eq_some hfind) hlive
                      (hex record hfind hfound)
          -- the successor's family is revoked as a whole
          | rotateRevoke record => exact .finish (.set hk rfl) hex
          | rotateMark record since => exact .mark hk
          | rotateCreate record since =>
              simp only [advance]
              cases hcreate : create hashToken tokenExpiresAt raw record.walletAddress
                  record.familyId since s with
              | none => exact .rest (.set hk rfl)
              | some rows =>
                  obtain ⟨row, rfl, hwallet, hfamily, hsince, hfresh⟩ := create_spec hcreate
                  exact .create hk rfl hfamily hwallet hsince hfresh
          | sessionFind rawToken =>
              simp only [advance]
              cases findUnique (hashToken rawToken) s.rows with
              | none => exact .rest (.set hk rfl)
              | some record => exact .rest (.set hk rfl)
          | sessionRevoke familyId => exact .revoke (.set hk rfl)
          -- so is all that a wallet has
          | allRevoke walletAddress => exact .finish (.set hk rfl) hex
          | rotated accessToken refreshToken => exact .rest (.set hk rfl)
          | revoked => exact .rest (.set hk rfl)
          | thrown error => exact .rest (.set hk rfl)

end

-- ── Rows after an update ──────────────────────────────────────────────────────

/-- Counts the live tokens of a family. -/
def live (familyId : Nat) (row : RefreshToken) : Nat :=
  if row.familyId = familyId ∧ Live row then 1 else 0

/-- A row before and after an update: its identity stays, and no used or revoked
    token comes back. -/
structure Kept (row row' : RefreshToken) : Prop where
  tokenHash : row'.tokenHash = row.tokenHash
  walletAddress : row'.walletAddress = row.walletAddress
  familyId : row'.familyId = row.familyId
  since : row'.since = row.since
  used : row.used = true → row'.used = true
  live : Live row' → Live row

/-- The rows after an update. -/
structure Updated (rows rows' : List RefreshToken) : Prop where
  origin : ∀ row' ∈ rows', ∃ row ∈ rows, Kept row row'
  hash : ∀ row ∈ rows, ∃ row' ∈ rows', row'.tokenHash = row.tokenHash
  live : ∀ f, Pool.total (live f) rows' ≤ Pool.total (live f) rows

/-- Rows that each keep what cannot change are updated. -/
theorem Updated.map {g : RefreshToken → RefreshToken} (hg : ∀ row, Kept row (g row))
    (rows : List RefreshToken) : Updated rows (rows.map g) := by
  refine ⟨fun row' hrow' => ?_, fun row hrow => ⟨g row, List.mem_map_of_mem hrow, (hg row).tokenHash⟩,
    fun f => ?_⟩
  · obtain ⟨row, hrow, rfl⟩ := List.mem_map.mp hrow'
    exact ⟨row, hrow, hg row⟩
  · induction rows with
    | nil => exact Nat.le_refl 0
    | cons row rows ih =>
        have hone : Session.live f (g row) ≤ Session.live f row := by
          rw [Session.live, Session.live]
          split
          · next h => exact Nat.le_of_eq (if_pos ⟨(hg row).familyId ▸ h.1, (hg row).live h.2⟩).symm
          · exact Nat.zero_le _
        rw [List.map_cons, Pool.total_cons, Pool.total_cons]
        omega

/-- Rows that stay are, too. -/
theorem Updated.refl (rows : List RefreshToken) : Updated rows rows := by
  have h := Updated.map (g := id) (fun row => ⟨rfl, rfl, rfl, rfl, id, id⟩) rows
  rwa [List.map_id] at h

/-- To mark a row as used is an update. -/
theorem updated_markUsed (tokenHash : String) (rows : List RefreshToken) :
    Updated rows (markUsed tokenHash rows) := by
  refine Updated.map (fun row => ?_) rows
  split
  · exact ⟨rfl, rfl, rfl, rfl, fun _ => rfl, fun h => absurd h.1 (by simp)⟩
  · exact ⟨rfl, rfl, rfl, rfl, id, id⟩

/-- To revoke a family or a wallet is one. -/
theorem updated_updateMany (scope : Scope) (now : Nat) (rows : List RefreshToken) :
    Updated rows (updateMany scope now rows) := by
  refine Updated.map (fun row => ?_) rows
  split
  · exact ⟨rfl, rfl, rfl, rfl, id, fun h => absurd h.2 (by simp)⟩
  · exact ⟨rfl, rfl, rfl, rfl, id, id⟩

/-- The row with that hash is used afterwards. -/
theorem used_of_markUsed {tokenHash : String} {rows : List RefreshToken} {row : RefreshToken}
    (hrow : row ∈ markUsed tokenHash rows) (h : row.tokenHash = tokenHash) : row.used = true := by
  obtain ⟨q, hq, rfl⟩ := List.mem_map.mp hrow
  by_cases hhash : q.tokenHash = tokenHash
  · simp only [if_pos hhash]
  · simp only [if_neg hhash] at h
    exact absurd h hhash

/-- No row that a revocation covers is live afterwards. -/
theorem not_live_of_updateMany {scope : Scope} {now : Nat} {rows : List RefreshToken}
    {row : RefreshToken} (hrow : row ∈ updateMany scope now rows) (h : scope.Covers row) :
    ¬ Live row := by
  obtain ⟨q, hq, rfl⟩ := List.mem_map.mp hrow
  intro hlive
  split at hlive
  · exact absurd hlive.2 (by simp)
  · next hnot =>
      rw [if_neg hnot] at h
      exact hnot ⟨h, hlive.2⟩

/-- What a scope covers depends on family and wallet alone. -/
theorem Scope.Covers.congr {scope : Scope} {row q : RefreshToken} (h : scope.Covers row)
    (hfamily : row.familyId = q.familyId) (hwallet : row.walletAddress = q.walletAddress) :
    scope.Covers q := by
  cases scope with
  | family familyId => exact hfamily.symm.trans h
  | wallet walletAddress => exact hwallet.symm.trans h

-- ── Single use ────────────────────────────────────────────────────────────────

/-- A token rotated, or whose rotation has marked it. -/
def Spent (s : State) (tokenHash : String) : Prop :=
  tokenHash ∈ s.rotated ∨ ∃ record since, .rotateCreate record since ∈ s.calls ∧ record.tokenHash = tokenHash

/-- At most one call has rotated a token or is about to, and a spent token is used. -/
structure Once (s : State) : Prop where
  count : ∀ h, s.rotated.count h + Pool.total (holding (ofToken h)) s.calls ≤ 1
  known : ∀ d ∈ s.calls, ∀ q, d.held = some q → ∃ row ∈ s.rows, row.tokenHash = q.1.tokenHash
  spent : ∀ h, Spent s h →
    (∃ row ∈ s.rows, row.tokenHash = h) ∧ ∀ row ∈ s.rows, row.tokenHash = h → row.used = true

/-- Only rows and calls like those before. -/
theorem Once.updated {s : State} (h : Once s) {rows : List RefreshToken} {calls : List Call}
    (hrows : Updated s.rows rows) (hcalls : Fewer s.calls calls) (now : Nat)
    (revocations : List Scope) : Once { s with rows, calls, now, revocations } := by
  refine ⟨fun t => ?_, fun d hd q hq => ?_, fun t ht => ?_⟩
  · have hcount := h.count t
    have htotal := hcalls.total (ofToken t)
    simp only
    omega
  · obtain ⟨row, hrow, hhash⟩ := h.known d (hcalls.mem d hd (by simp [hq])) q hq
    obtain ⟨row', hrow', hhash'⟩ := hrows.hash row hrow
    exact ⟨row', hrow', hhash'.trans hhash⟩
  · have hspent : Spent s t := by
      refine ht.imp id ?_
      rintro ⟨record, since, hmem, hhash⟩
      exact ⟨record, since, hcalls.mem _ hmem (by simp [Call.held]), hhash⟩
    obtain ⟨⟨row, hrow, hhash⟩, hused⟩ := h.spent t hspent
    obtain ⟨row', hrow', hhash'⟩ := hrows.hash row hrow
    refine ⟨⟨row', hrow', hhash'.trans hhash⟩, fun p hp hpt => ?_⟩
    obtain ⟨q, hq, hkept⟩ := hrows.origin p hp
    exact hkept.used (hused q hq (hkept.tokenHash.symm.trans hpt))

/-- A token whose row is live has been rotated by nobody. -/
theorem Once.unspent {s : State} (h : Once s) {record : RefreshToken} (hrow : record ∈ s.rows)
    (hlive : Live record) : ¬ Spent s record.tokenHash := fun hspent =>
  absurd (hlive.1.symm.trans ((h.spent _ hspent).2 record hrow rfl)) (by simp)

/-- A call may take up a live row that no other call holds. -/
theorem Once.take {s : State} (h : Once s) {k : Nat} {c : Call} {record : RefreshToken} (since : Nat)
    (hk : s.calls[k]? = some c) (hc : c.held = none) (hrow : record ∈ s.rows) (hlive : Live record)
    (halone : ∀ d ∈ s.calls, ∀ q, d.held = some q → q.1.tokenHash ≠ record.tokenHash) :
    Once { s with calls := s.calls.set k (.rotateMark record since) } := by
  refine ⟨fun t => ?_, fun d hd q hq => ?_, fun t ht => ?_⟩
  -- the count of the token: used rows, created successors, and calls that hold it
  · have htotal := Pool.total_set (holding (ofToken t)) hk (.rotateMark record since)
    rw [holding_none hc, @holding_some _ record _ rfl] at htotal
    have hcount := h.count t
    by_cases ht : record.tokenHash = t
    · -- nobody has rotated the token and nobody holds it
      subst ht
      have hzero : s.rotated.count record.tokenHash = 0 :=
        List.count_eq_zero.mpr fun hmem => h.unspent hrow hlive (Or.inl hmem)
      have hnone : Pool.total (holding (ofToken record.tokenHash)) s.calls = 0 := by
        refine Pool.total_eq_zero fun d hd => ?_
        cases hheld : d.held with
        | none => exact holding_none hheld _
        | some q =>
            rw [holding_some hheld, ofToken, if_neg (by simpa using halone d hd q hheld)]
      simp only [ofToken, decide_true, if_true] at htotal
      simp only
      omega
    · simp only [ofToken, decide_eq_false ht, Bool.false_eq_true, if_false] at htotal
      simp only
      omega
  · rcases Pool.mem_set hd with rfl | hd
    · obtain rfl := Option.some.inj hq
      exact ⟨record, hrow, rfl⟩
    · exact h.known d hd q hq
  -- what is spent stays spent
  · refine h.spent t (ht.imp id ?_)
    rintro ⟨p, n, hmem, hhash⟩
    rcases Pool.mem_set hmem with heq | hmem
    · exact absurd heq (by simp)
    · exact ⟨p, n, hmem, hhash⟩

/-- The row in hand is marked: from here on nobody else can take it. -/
theorem Once.mark {s : State} (h : Once s) {k : Nat} {record : RefreshToken} {since : Nat}
    (hk : s.calls[k]? = some (.rotateMark record since)) :
    Once { s with rows := markUsed record.tokenHash s.rows,
                  calls := s.calls.set k (.rotateCreate record since) } := by
  have hrows := updated_markUsed record.tokenHash s.rows
  have hexists : ∀ {t : String}, (∃ row ∈ s.rows, row.tokenHash = t) →
      ∃ row ∈ markUsed record.tokenHash s.rows, row.tokenHash = t := by
    rintro t ⟨row, hrow, hhash⟩
    obtain ⟨row', hrow', hhash'⟩ := hrows.hash row hrow
    exact ⟨row', hrow', hhash'.trans hhash⟩
  have hrecord := h.known _ (List.mem_of_getElem? hk) (record, since) rfl
  -- the row in hand passes from the calls to the used rows
  refine ⟨fun t => ?_, fun d hd q hq => ?_, fun t ht => ?_⟩
  · have htotal := Pool.total_set (holding (ofToken t)) hk (.rotateCreate record since)
    rw [holding_some (c := .rotateMark record since) rfl,
      holding_some (c := .rotateCreate record since) rfl] at htotal
    have hcount := h.count t
    simp only
    omega
  · refine hexists ?_
    rcases Pool.mem_set hd with rfl | hd
    · obtain rfl := Option.some.inj hq
      exact hrecord
    · exact h.known d hd q hq
  -- the token just marked is spent now; others are if they were
  · by_cases hmarked : record.tokenHash = t
    · subst hmarked
      exact ⟨hexists hrecord, fun row hrow hhash => used_of_markUsed hrow hhash⟩
    · have hspent : Spent s t := by
        refine ht.imp id ?_
        rintro ⟨p, n, hmem, hhash⟩
        rcases Pool.mem_set hmem with heq | hmem
        · obtain ⟨rfl, -⟩ := Call.rotateCreate.inj heq
          exact absurd hhash hmarked
        · exact ⟨p, n, hmem, hhash⟩
      obtain ⟨hrow, hused⟩ := h.spent t hspent
      refine ⟨hexists hrow, fun p hp hpt => ?_⟩
      obtain ⟨q, hq, hkept⟩ := hrows.origin p hp
      exact hkept.used (hused q hq (hkept.tokenHash.symm.trans hpt))

/-- A row with a hash of its own joins the table. -/
theorem Once.grow {s : State} (h : Once s) {row : RefreshToken}
    (hfresh : ∀ q ∈ s.rows, q.tokenHash ≠ row.tokenHash) (families : Nat) :
    Once { s with rows := s.rows ++ [row], families } := by
  refine ⟨h.count, fun d hd q hq => ?_, fun t ht => ?_⟩
  · obtain ⟨p, hp, hhash⟩ := h.known d hd q hq
    exact ⟨p, List.mem_append_left _ hp, hhash⟩
  · obtain ⟨⟨p, hp, hhash⟩, hused⟩ := h.spent t ht
    refine ⟨⟨p, List.mem_append_left _ hp, hhash⟩, fun q hq hqt => ?_⟩
    rcases List.mem_append.mp hq with hq | hq
    · exact hused q hq hqt
    · obtain rfl := List.mem_singleton.mp hq
      exact absurd (hhash.trans hqt.symm) (hfresh p hp)

/-- The successor's row is created by the one call that holds the marked row. -/
theorem Once.succeed {s : State} (h : Once s) {k : Nat} {record : RefreshToken} {since : Nat}
    {c : Call} (hk : s.calls[k]? = some (.rotateCreate record since)) (hc : c.held = none) :
    Once { s with calls := s.calls.set k c, rotated := s.rotated ++ [record.tokenHash] } := by
  have hfewer := Fewer.set hk hc
  refine ⟨fun t => ?_, fun d hd q hq => h.known d (hfewer.mem d hd (by simp [hq])) q hq,
    fun t ht => h.spent t ?_⟩
  · have htotal := Pool.total_set (holding (ofToken t)) hk c
    rw [holding_none hc, @holding_some _ record _ rfl] at htotal
    have hcount := h.count t
    simp only [List.count_append, List.count_singleton, ofToken, decide_eq_true_eq, beq_iff_eq]
      at htotal ⊢
    omega
  · rcases ht with ht | ⟨p, n, hmem, hhash⟩
    · rcases List.mem_append.mp ht with ht | ht
      · exact Or.inl ht
      · exact Or.inr ⟨record, since, List.mem_of_getElem? hk, (List.mem_singleton.mp ht).symm⟩
    · exact Or.inr ⟨p, n, hfewer.mem _ hmem (by simp [Call.held]), hhash⟩

/-- Every change there is keeps it at one successor for each row. -/
theorem Once.change {s t : State} (h : Once s) (hst : Change s t) : Once t := by
  cases hst with
  | rest hcalls => exact h.updated (.refl s.rows) hcalls _ s.revocations
  | issue hfamily hsince hfresh => exact h.grow hfresh _
  | take hk hc hrow hlive halone => exact h.take _ hk hc hrow hlive halone
  | mark hk => exact h.mark hk
  | create hk hc hfamily hwallet hsince hfresh => exact (h.succeed hk hc).grow hfresh s.families
  | revoke hcalls => exact h.updated (updated_updateMany _ _ _) hcalls s.now s.revocations
  | finish hcalls hnone => exact h.updated (updated_updateMany _ _ _) hcalls s.now _

-- ── One live token a family ───────────────────────────────────────────────────

/-- A family has one live token, one rotation past its find, and while a rotation
    holds a token no other of its family is live. -/
structure Alone (s : State) : Prop where
  named : ∀ row ∈ s.rows, row.familyId < s.families
  held : ∀ d ∈ s.calls, ∀ q, d.held = some q → q.1.familyId < s.families
  live : ∀ f, Pool.total (live f) s.rows ≤ 1
  holding : ∀ f, Pool.total (holding (ofFamily f)) s.calls ≤ 1
  marking : ∀ record since, .rotateMark record since ∈ s.calls → ∀ row ∈ s.rows,
    row.familyId = record.familyId → Live row → row.tokenHash = record.tokenHash
  creating : ∀ record since, .rotateCreate record since ∈ s.calls → ∀ row ∈ s.rows,
    row.familyId = record.familyId → ¬ Live row

/-- A live row counts in its own family. -/
theorem live_pos {row : RefreshToken} (h : Live row) : live row.familyId row = 1 := if_pos ⟨rfl, h⟩

/-- An update makes no row live, so a family with one live row keeps to it. -/
theorem Alone.updated {s : State} (h : Alone s) {rows : List RefreshToken} {calls : List Call}
    (hrows : Updated s.rows rows) (hcalls : Fewer s.calls calls) (now : Nat)
    (revocations : List Scope) : Alone { s with rows, calls, now, revocations } := by
  refine ⟨fun row hrow => ?_, fun d hd q hq => h.held d (hcalls.mem d hd (by simp [hq])) q hq,
    fun f => Nat.le_trans (hrows.live f) (h.live f),
    fun f => Nat.le_trans (hcalls.total _) (h.holding f), fun p n hmem row hrow hfamily hlive => ?_,
    fun p n hmem row hrow hfamily hlive => ?_⟩
  · obtain ⟨q, hq, hkept⟩ := hrows.origin row hrow
    exact hkept.familyId ▸ h.named q hq
  · obtain ⟨q, hq, hkept⟩ := hrows.origin row hrow
    exact hkept.tokenHash.trans (h.marking p n (hcalls.mem _ hmem (by simp [Call.held])) q hq
      (hkept.familyId.symm.trans hfamily) (hkept.live hlive))
  · obtain ⟨q, hq, hkept⟩ := hrows.origin row hrow
    exact h.creating p n (hcalls.mem _ hmem (by simp [Call.held])) q hq
      (hkept.familyId.symm.trans hfamily) (hkept.live hlive)

/-- A live token of a family is the only one, and no rotation of the family is
    past its find unless it holds that token. -/
theorem Alone.take {s : State} (h : Alone s) {k : Nat} {c : Call} {record : RefreshToken} (since : Nat)
    (hk : s.calls[k]? = some c) (hc : c.held = none) (hrow : record ∈ s.rows) (hlive : Live record)
    (halone : ∀ d ∈ s.calls, ∀ q, d.held = some q → q.1.tokenHash ≠ record.tokenHash) :
    Alone { s with calls := s.calls.set k (.rotateMark record since) } := by
  -- a call that holds a row of the family would hold this very token
  have hfree : ∀ d ∈ s.calls, ∀ q, d.held = some q → q.1.familyId ≠ record.familyId := by
    intro d hd q hq hfamily
    cases d with
    | rotateMark p n =>
        obtain rfl := Option.some.inj hq
        exact halone _ hd _ rfl (h.marking p n hd record hrow hfamily.symm hlive).symm
    | rotateCreate p n =>
        obtain rfl := Option.some.inj hq
        exact h.creating p n hd record hrow hfamily.symm hlive
    | _ => exact absurd hq (by simp [Call.held])
  -- the family has one live row, which is now in hand
  refine ⟨h.named, fun d hd q hq => ?_, h.live, fun f => ?_, fun p n hmem row hr hfamily hl => ?_,
    fun p n hmem => ?_⟩
  · rcases Pool.mem_set hd with rfl | hd
    · obtain rfl := Option.some.inj hq
      exact h.named record hrow
    · exact h.held d hd q hq
  · have htotal := Pool.total_set (Session.holding (ofFamily f)) hk (.rotateMark record since)
    rw [holding_none hc, @holding_some _ record _ rfl] at htotal
    have hone := h.holding f
    by_cases hf : record.familyId = f
    · subst hf
      have hnone : Pool.total (Session.holding (ofFamily record.familyId)) s.calls = 0 := by
        refine Pool.total_eq_zero fun d hd => ?_
        cases hheld : d.held with
        | none => exact holding_none hheld _
        | some q =>
            rw [holding_some hheld, ofFamily, if_neg (by simpa using hfree d hd q hheld)]
      simp only [ofFamily, decide_true, if_true] at htotal
      simp only
      omega
    · simp only [ofFamily, decide_eq_false hf, Bool.false_eq_true, if_false] at htotal
      simp only
      omega
  · rcases Pool.mem_set hmem with heq | hmem
    · -- two live tokens of the family would make two
      obtain ⟨rfl, -⟩ := Call.rotateMark.inj heq
      exact congrArg RefreshToken.tokenHash (Pool.eq_of_total_le_one (h.live p.familyId) hr hrow
        (hfamily ▸ live_pos hl) (live_pos hlive))
    · exact h.marking p n hmem row hr hfamily hl
  · rcases Pool.mem_set hmem with heq | hmem
    · exact absurd heq (by simp)
    · exact h.creating p n hmem

/-- A call that holds a row of a family is the only one. -/
theorem Alone.sole {s : State} (h : Alone s) {k : Nat} {b c d : Call} {q r : RefreshToken × Nat}
    (hk : s.calls[k]? = some b) (hb : b.held = some r) (hd : d ∈ s.calls.set k c)
    (hq : d.held = some q) (hfamily : q.1.familyId = r.1.familyId) : d = c := by
  by_contra hne
  have hle := Pool.le_total (Session.holding (ofFamily r.1.familyId)) (Pool.mem_eraseIdx_of_set hd hne)
  have htotal := Pool.total_eraseIdx (Session.holding (ofFamily r.1.familyId)) hk
  rw [holding_some hq, ofFamily, if_pos (decide_eq_true hfamily)] at hle
  rw [holding_some hb, ofFamily, if_pos (decide_eq_true rfl)] at htotal
  have hone := h.holding r.1.familyId
  omega

/-- To mark the row in hand makes room for its successor. -/
theorem Alone.mark {s : State} (h : Alone s) {k : Nat} {record : RefreshToken} {since : Nat}
    (hk : s.calls[k]? = some (.rotateMark record since)) :
    Alone { s with rows := markUsed record.tokenHash s.rows,
                   calls := s.calls.set k (.rotateCreate record since) } := by
  have hmem := List.mem_of_getElem? hk
  have hrows := h.updated (updated_markUsed record.tokenHash s.rows) (.refl s.calls) s.now s.revocations
  -- the live row is used now, and its holder counts in its place
  refine ⟨hrows.named, fun d hd q hq => ?_, hrows.live, fun f => ?_, fun p n hm => ?_,
    fun p n hm row hrow hfamily hlive => ?_⟩
  · rcases Pool.mem_set hd with rfl | hd
    · exact h.held _ hmem q hq
    · exact h.held d hd q hq
  · have htotal := Pool.total_set (Session.holding (ofFamily f)) hk (.rotateCreate record since)
    rw [holding_some (c := .rotateMark record since) rfl,
      holding_some (c := .rotateCreate record since) rfl] at htotal
    have hone := h.holding f
    simp only
    omega
  · rcases Pool.mem_set hm with heq | hm
    · exact absurd heq (by simp)
    · exact hrows.marking p n hm
  · rcases Pool.mem_set hm with heq | hm
    · -- the one token that was live is used now
      obtain ⟨rfl, -⟩ := Call.rotateCreate.inj heq
      have hused := used_of_markUsed hrow (hrows.marking p since hmem row hrow hfamily hlive)
      exact absurd (hlive.1.symm.trans hused) (by simp)
    · exact hrows.creating p n hm row hrow hfamily hlive

/-- A first token, in a family of its own. -/
theorem Alone.issue {s : State} (h : Alone s) {row : RefreshToken} (hnew : row.familyId = s.families) :
    Alone { s with rows := s.rows ++ [row], families := s.families + 1 } := by
  refine ⟨fun q hq => ?_, fun d hd q hq => Nat.lt_succ_of_lt (h.held d hd q hq), fun f => ?_,
    h.holding, fun p n hm q hq hfamily hlive => ?_, fun p n hm q hq hfamily hlive => ?_⟩
  -- the new row is of a family nobody has been given yet
  · rcases List.mem_append.mp hq with hq | hq
    · exact Nat.lt_succ_of_lt (h.named q hq)
    · obtain rfl := List.mem_singleton.mp hq
      exact hnew ▸ Nat.lt_succ_self _
  · rw [Pool.total_append, Pool.total_cons, Pool.total_nil]
    have hlive := h.live f
    by_cases hf : row.familyId = f
    · have hnone : Pool.total (Session.live f) s.rows = 0 := by
        refine Pool.total_eq_zero fun q hq => if_neg fun hq' => ?_
        have hlt := h.named q hq
        omega
      have hle : Session.live f row ≤ 1 := by rw [Session.live]; split <;> omega
      omega
    · have hzero : Session.live f row = 0 := if_neg fun h' => hf h'.1
      omega
  · have hlt := h.held _ hm (p, n) rfl
    rcases List.mem_append.mp hq with hq | hq
    · exact h.marking p n hm q hq hfamily hlive
    · obtain rfl := List.mem_singleton.mp hq
      exact absurd (hnew.symm.trans hfamily) (Nat.ne_of_gt hlt)
  · have hlt := h.held _ hm (p, n) rfl
    rcases List.mem_append.mp hq with hq | hq
    · exact h.creating p n hm q hq hfamily hlive
    · obtain rfl := List.mem_singleton.mp hq
      exact absurd (hnew.symm.trans hfamily) (Nat.ne_of_gt hlt)

/-- A successor, in the family of the token it replaces. -/
theorem Alone.create {s : State} (h : Alone s) {k : Nat} {record row : RefreshToken} {since : Nat}
    {c : Call} (hk : s.calls[k]? = some (.rotateCreate record since)) (hc : c.held = none)
    (hsame : row.familyId = record.familyId) (rotated : List String) :
    Alone { s with rows := s.rows ++ [row], calls := s.calls.set k c, rotated } := by
  have hmem := List.mem_of_getElem? hk
  have hcalls := Fewer.set hk hc
  -- the call whose successor is created is the only one that holds a row of the family
  have hnone : ∀ d ∈ s.calls.set k c, ∀ q, d.held = some q → q.1.familyId ≠ record.familyId := by
    intro d hd q hq hfamily
    obtain rfl := h.sole hk rfl hd hq hfamily
    exact absurd (hc.symm.trans hq) (by simp)
  refine ⟨fun q hq => ?_, fun d hd q hq => h.held d (hcalls.mem d hd (by simp [hq])) q hq, fun f => ?_,
    fun f => Nat.le_trans (hcalls.total _) (h.holding f), fun p n hm q hq hfamily hlive => ?_,
    fun p n hm q hq hfamily hlive => ?_⟩
  -- the successor is of the family of the row it replaces
  · rcases List.mem_append.mp hq with hq | hq
    · exact h.named q hq
    · obtain rfl := List.mem_singleton.mp hq
      exact hsame ▸ h.held _ hmem (record, since) rfl
  · rw [Pool.total_append, Pool.total_cons, Pool.total_nil]
    have hlive := h.live f
    -- in that family no row is live: the one in hand was used
    by_cases hf : row.familyId = f
    · have hzero : Pool.total (Session.live f) s.rows = 0 := by
        refine Pool.total_eq_zero fun q hq => if_neg fun hq' => ?_
        exact h.creating record since hmem q hq (hq'.1.trans (hf.symm.trans hsame)) hq'.2
      have hle : Session.live f row ≤ 1 := by rw [Session.live]; split <;> omega
      omega
    · have hzero : Session.live f row = 0 := if_neg fun h' => hf h'.1
      omega
  · have hold := hcalls.mem _ hm (by simp [Call.held])
    rcases List.mem_append.mp hq with hq | hq
    · exact h.marking p n hold q hq hfamily hlive
    · obtain rfl := List.mem_singleton.mp hq
      exact absurd (hfamily.symm.trans hsame) (hnone _ hm (p, n) rfl)
  · have hold := hcalls.mem _ hm (by simp [Call.held])
    rcases List.mem_append.mp hq with hq | hq
    · exact h.creating p n hold q hq hfamily hlive
    · obtain rfl := List.mem_singleton.mp hq
      exact absurd (hfamily.symm.trans hsame) (hnone _ hm (p, n) rfl)

/-- Every change keeps a family to one live row or one under way. -/
theorem Alone.change {s t : State} (h : Alone s) (hst : Change s t) : Alone t := by
  cases hst with
  | rest hcalls => exact h.updated (.refl s.rows) hcalls _ s.revocations
  | issue hfamily hsince hfresh => exact h.issue hfamily
  | take hk hc hrow hlive halone => exact h.take _ hk hc hrow hlive halone
  | mark hk => exact h.mark hk
  | create hk hc hfamily hwallet hsince hfresh => exact h.create hk hc hfamily _
  | revoke hcalls => exact h.updated (updated_updateMany _ _ _) hcalls s.now s.revocations
  | finish hcalls hnone => exact h.updated (updated_updateMany _ _ _) hcalls s.now _

-- ── A finished revocation ─────────────────────────────────────────────────────

/-- No token whose issue began before a revocation of its session had finished is
    live. -/
def Ended (s : State) : Prop :=
  ∀ (i : Nat) (scope : Scope), s.revocations[i]? = some scope →
    ∀ row ∈ s.rows, scope.Covers row → row.since ≤ i → ¬ Live row

/-- No rotation that began before a revocation of its session had finished still
    holds its token. -/
structure Over (s : State) : Prop where
  ended : Ended s
  held : ∀ (i : Nat) (scope : Scope), s.revocations[i]? = some scope →
    ∀ d ∈ s.calls, ∀ q, d.held = some q → scope.Covers q.1 → i < q.2

/-- What is revoked stays so under an update. -/
theorem Over.updated {s : State} (h : Over s) {rows : List RefreshToken} {calls : List Call}
    (hrows : Updated s.rows rows) (hcalls : Fewer s.calls calls) (now : Nat) :
    Over { s with rows, calls, now } := by
  refine ⟨fun i scope hi row hrow hcovers hsince hlive => ?_, fun i scope hi d hd q hq =>
    h.held i scope hi d (hcalls.mem d hd (by simp [hq])) q hq⟩
  obtain ⟨q, hq, hkept⟩ := hrows.origin row hrow
  exact h.ended i scope hi q hq (hcovers.congr hkept.familyId hkept.walletAddress)
    (hkept.since ▸ hsince) (hkept.live hlive)

/-- A row whose issue began after every revocation of its session. -/
theorem Over.grow {s : State} (h : Over s) {row : RefreshToken} (families : Nat)
    (hrow : ∀ (i : Nat) (scope : Scope), s.revocations[i]? = some scope → scope.Covers row → i < row.since) :
    Over { s with rows := s.rows ++ [row], families } := by
  refine ⟨fun i scope hi q hq hcovers hsince => ?_, h.held⟩
  rcases List.mem_append.mp hq with hq | hq
  · exact h.ended i scope hi q hq hcovers hsince
  · obtain rfl := List.mem_singleton.mp hq
    exact absurd hsince (Nat.not_le.mpr (hrow i scope hi hcovers))

/-- A call past its find. -/
theorem Over.hold {s : State} (h : Over s) {k : Nat} {c : Call} {q : RefreshToken × Nat}
    (hc : c.held = some q)
    (hnew : ∀ (i : Nat) (scope : Scope), s.revocations[i]? = some scope → scope.Covers q.1 → i < q.2) :
    Over { s with calls := s.calls.set k c } := by
  refine ⟨h.ended, fun i scope hi d hd p hp hcovers => ?_⟩
  rcases Pool.mem_set hd with rfl | hd
  · obtain rfl := Option.some.inj (hc.symm.trans hp)
    exact hnew i scope hi hcovers
  · exact h.held i scope hi d hd p hp hcovers

/-- A revocation that finds no call holding a row of its scope ends that scope. -/
theorem Over.finish {s : State} (h : Over s) {scope : Scope} {calls : List Call}
    (hcalls : Fewer s.calls calls)
    (hnone : ∀ d ∈ s.calls, ∀ q, d.held = some q → ¬ scope.Covers q.1) :
    Over { s with rows := updateMany scope s.now s.rows, calls,
                  revocations := s.revocations ++ [scope] } := by
  have hold := h.updated (updated_updateMany scope s.now s.rows) hcalls s.now
  refine ⟨fun i q hi row hrow hcovers hsince => ?_, fun i q hi d hd p hp hcovers => ?_⟩
  · by_cases hlt : i < s.revocations.length
    · exact hold.ended i q ((List.getElem?_append_left hlt).symm.trans hi) row hrow hcovers hsince
    · obtain rfl : scope = q := by
        rw [List.getElem?_append_right (Nat.not_lt.mp hlt)] at hi
        exact (List.mem_singleton.mp (List.mem_of_getElem? hi)).symm
      exact not_live_of_updateMany hrow hcovers
  · by_cases hlt : i < s.revocations.length
    · exact hold.held i q ((List.getElem?_append_left hlt).symm.trans hi) d hd p hp hcovers
    · obtain rfl : scope = q := by
        rw [List.getElem?_append_right (Nat.not_lt.mp hlt)] at hi
        exact (List.mem_singleton.mp (List.mem_of_getElem? hi)).symm
      exact absurd hcovers (hnone d (hcalls.mem d hd (by simp [hp])) p hp)

/-- Every change keeps what is revoked revoked. -/
theorem Over.change {s t : State} (h : Over s) (hst : Change s t) : Over t := by
  have hpast : ∀ (i : Nat) (scope : Scope), s.revocations[i]? = some scope → i < s.revocations.length :=
    fun i scope hi => (List.getElem?_eq_some_iff.mp hi).1
  cases hst with
  | rest hcalls => exact h.updated (.refl s.rows) hcalls _
  | issue hfamily hsince hfresh =>
      exact h.grow _ fun i scope hi _ => hsince ▸ hpast i scope hi
  | take hk hc hrow hlive halone => exact h.hold rfl fun i scope hi _ => hpast i scope hi
  | @mark k record since hk =>
      exact (h.updated (updated_markUsed record.tokenHash s.rows) (.refl s.calls) s.now).hold rfl
        fun i scope hi hcovers => h.held i scope hi _ (List.mem_of_getElem? hk) _ rfl hcovers
  | create hk hc hfamily hwallet hsince hfresh =>
      have hgrown := (h.updated (.refl s.rows) (.set hk hc) s.now).grow s.families fun i scope hi hcovers =>
        hsince ▸ h.held i scope hi _ (List.mem_of_getElem? hk) _ rfl (hcovers.congr hfamily hwallet)
      exact ⟨hgrown.ended, hgrown.held⟩
  | revoke hcalls => exact h.updated (updated_updateMany _ _ _) hcalls s.now
  | finish hcalls hnone => exact h.finish hcalls hnone

-- ── Runs ──────────────────────────────────────────────────────────────────────

/-- Each token rotated at most once, at most one live token a family, and none left
    by a finished revocation. -/
structure Secure (s : State) : Prop where
  single : ∀ tokenHash, s.rotated.count tokenHash ≤ 1
  live : ∀ familyId, Pool.total (live familyId) s.rows ≤ 1
  ended : Ended s

section
variable {hashToken issueJwt : String → String} {tokenExpiresAt : Nat → Nat}

/-- **SECURE ALONG EXCLUSIVE RUNS**: for any calls in any order of steps, as long as
    no rotation finds a token live while another holds it and no reuse detection
    or `revokeAllSessions` revokes while a rotation holds one of its tokens. -/
theorem sessions_secure {es : List Event}
    (h : Along (step hashToken issueJwt tokenExpiresAt) (Exclusive hashToken) es start) :
    Secure (exec (step hashToken issueJwt tokenExpiresAt) es start) := by
  have honce : Once (exec (step hashToken issueJwt tokenExpiresAt) es start) :=
    exec_invariant (fun e s hex hs => hs.change (step_change hex))
      ⟨fun _ => Nat.zero_le 1, by simp [start], by simp [start, Spent]⟩ h
  have halone : Alone (exec (step hashToken issueJwt tokenExpiresAt) es start) :=
    exec_invariant (fun e s hex hs => hs.change (step_change hex))
      ⟨by simp [start], by simp [start], fun _ => Nat.zero_le 1, fun _ => Nat.zero_le 1,
        by simp [start], by simp [start]⟩ h
  have hover : Over (exec (step hashToken issueJwt tokenExpiresAt) es start) :=
    exec_invariant (fun e s hex hs => hs.change (step_change hex))
      ⟨by simp [start, Ended], by simp [start]⟩ h
  exact ⟨fun t => Nat.le_trans (Nat.le_add_right _ _) (honce.count t), halone.live, hover.ended⟩

end

/-- A token rotated, then presented again. -/
def replayed : List Event :=
  [.issueRefreshToken "G" "a", .rotateRefreshToken "a", .step 0 "", .step 0 "", .step 0 "b",
    .rotateRefreshToken "a", .step 1 "", .step 1 ""]

/-- While no rotation is past its find every step is exclusive. -/
theorem exclusive_idle {hashToken : String → String} {k : Nat} {raw : String} {s : State}
    (h : ∀ d ∈ s.calls, d.held = none) : Exclusive hashToken (.step k raw) s := by
  have hnone : ∀ d ∈ s.calls, ∀ q, d.held ≠ some q := fun d hd q hq =>
    absurd ((h d hd).symm.trans hq) (by simp)
  rw [Exclusive]
  split
  · exact fun record _ _ d hd q hq => absurd hq (hnone d hd q)
  · exact fun d hd q hq => absurd hq (hnone d hd q)
  · exact fun d hd q hq => absurd hq (hnone d hd q)
  · trivial

/-- A run with a token used twice, which meets the conditions, and what comes of it. -/
theorem replayed_secure :
    Along (step id id (· + 1000)) (Exclusive id) replayed start
      ∧ (exec (step id id (· + 1000)) replayed start).revocations = [.family 0]
      ∧ Secure (exec (step id id (· + 1000)) replayed start) := by
  have h : Along (step id id (· + 1000)) (Exclusive id) replayed start :=
    ⟨trivial, trivial, exclusive_idle (by decide +kernel), trivial, trivial, trivial,
      exclusive_idle (by decide +kernel), exclusive_idle (by decide +kernel), trivial⟩
  exact ⟨h, by decide +kernel, sessions_secure h⟩

/-- Two rotations of one token, step by step. -/
def raced : List Event :=
  [.issueRefreshToken "G" "a", .rotateRefreshToken "a", .rotateRefreshToken "a",
    .step 0 "", .step 1 "", .step 0 "", .step 1 "", .step 0 "b", .step 1 "c"]

/-- **BROKEN BY RACES**: two rotations of one token both find it unused and rotate
    it, and the family has two live tokens; the reuse detected next misses the
    token that a third rotation has yet to create. -/
theorem rotations_break_session :
    (exec (step id id (· + 1000)) raced start).rotated.count "a" = 2
      ∧ Pool.total (live 0) (exec (step id id (· + 1000)) raced start).rows = 2
      ∧ ¬ Ended (exec (step id id (· + 1000)) (raced ++ [.rotateRefreshToken "a",
          .rotateRefreshToken "b", .step 2 "", .step 3 "", .step 3 "", .step 2 "", .step 3 "d"]) start) := by
  refine ⟨by decide +kernel, by decide +kernel, fun h => ?_⟩
  exact h 0 (.family 0) (by decide +kernel) ⟨"d", "G", 0, false, none, 1000, 0⟩ (by decide +kernel)
    rfl (Nat.le_refl 0) ⟨rfl, rfl⟩

end Session
