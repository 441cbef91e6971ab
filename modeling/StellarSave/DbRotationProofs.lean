import Mathlib.Data.List.Basic
import Mathlib.Tactic.Common
import StellarSave.TraceProofs

/-! # Rotating the database password — four steps against two services

    `rotation_lambda/index.py`.  Secrets Manager calls the lambda once for each of
    four steps, again when a step fails or its answer is lost, and possibly twice
    at once; every step makes its own calls to Secrets Manager and to PostgreSQL,
    and any of them can be its last.  So a step is a program counter, and a run is
    any interleaving of such counters.

    Neither service is under our control.  Each is a parameter: its state, its
    calls, and what its documentation says they do.  A call that times out, or is
    refused for a reason not written here, ends the invocation: it is given no
    further turn. -/

namespace DbRotation

open Trace

/-- The labels the lambda asks for. -/
inductive Stage where
  | AWSCURRENT
  | AWSPENDING
  deriving DecidableEq, Repr

/-- The fields of the secret that the lambda reads. -/
structure SecretDict where
  host : String
  port : Nat
  dbname : String
  username : String
  password : String
  deriving DecidableEq, Repr

/-- Secrets Manager, as far as one secret of at most a hundred versions goes; beyond that
    it may delete old ones without a label.  A label is on one version at most; the value
    of a version is written once; a label is moved away only from the version it is on,
    and only to one that exists. -/
structure SecretsManager (V : Type) [DecidableEq V] where
  State : Type
  version : State → V → Option SecretDict
  labelled : State → Stage → Option V
  putSecretValue : State → V → SecretDict → Option State
  updateSecretVersionStage : State → V → Option V → Option State
  put_spec : ∀ {s s' v x}, putSecretValue s v x = some s' →
    (version s v = none ∨ version s v = some x) ∧
      (∀ w, version s' w = if w = v then some x else version s w) ∧
      (labelled s .AWSCURRENT ≠ none → labelled s' .AWSCURRENT = labelled s .AWSCURRENT)
  update_spec : ∀ {s s' v o}, updateSecretVersionStage s v o = some s' →
    labelled s .AWSCURRENT = o ∧ version s v ≠ none ∧ (∀ w, version s' w = version s w) ∧
      labelled s' .AWSCURRENT = some v

/-- PostgreSQL: who can connect, and what `ALTER USER .. WITH PASSWORD` does to it.
    The name stands in that statement without quotes: a `plain` one is a name that
    reads as itself there. -/
structure Database where
  State : Type
  serves : String → Nat → String → Bool
  plain : String → Bool
  connects : State → SecretDict → Bool
  alterUser : State → String → String → Option State
  connects_serves : ∀ {d x}, connects d x = true → serves x.host x.port x.dbname = true
  alter_spec : ∀ {d d' u p}, plain u = true → alterUser d u p = some d' → ∀ x, connects d' x =
    if x.username = u then serves x.host x.port x.dbname && decide (x.password = p) else connects d x

section
variable {V : Type} [DecidableEq V]

/-- Where an invocation stands: the call it makes next, and what it has read. -/
inductive Pc (V : Type) where
  | createCheck (token : V)
  | createRead (token : V)
  | createDraw (token : V) (secret : SecretDict)
  | createPut (token : V) (secret : SecretDict)
  | setPending (token : V)
  | setCurrent (pending : SecretDict)
  | setConnect (pending current : SecretDict)
  | setAlter (pending : SecretDict)
  | testPending (token : V)
  | testConnect (pending : SecretDict)
  | finishDescribe (token : V)
  | finishMove (token : V) (currentVersion : Option V)
  | returned (step : String)
  | raised
  deriving DecidableEq, Repr

/-- `handler`: where each step begins. -/
def handler (step : String) (token : V) : Pc V :=
  if step = "createSecret" then .createCheck token
  else if step = "setSecret" then .setPending token
  else if step = "testSecret" then .testPending token
  else if step = "finishSecret" then .finishDescribe token
  else .raised

variable (M : SecretsManager V) (D : Database)

/-- `get_secret_value` with a version and a label, which have to agree. -/
def getSecretValue (sm : M.State) (v : V) (stage : Stage) : Option SecretDict :=
  if M.labelled sm stage = some v then M.version sm v else none

/-- `get_secret_value` with the label `AWSCURRENT` alone. -/
def getCurrent (sm : M.State) : Option SecretDict :=
  (M.labelled sm .AWSCURRENT).bind (M.version sm)

/-- The two services and the invocations so far. -/
structure World where
  sm : M.State
  db : D.State
  calls : List (Pc V)

variable {M D}

/-- One call of an invocation to a service; `password` is what `get_random_password`
    would answer. -/
def advance (sm : M.State) (db : D.State) (password : String) : Pc V → M.State × D.State × Pc V
  | .createCheck token =>
      match getSecretValue M sm token .AWSPENDING with
      | some _ => (sm, db, .returned "createSecret")
      | none => (sm, db, .createRead token)
  | .createRead token =>
      match getCurrent M sm with
      | some secret => (sm, db, .createDraw token secret)
      | none => (sm, db, .raised)
  | .createDraw token secret => (sm, db, .createPut token { secret with password := password })
  | .createPut token secret =>
      match M.putSecretValue sm token secret with
      | some sm' => (sm', db, .returned "createSecret")
      | none => (sm, db, .raised)
  | .setPending token =>
      match getSecretValue M sm token .AWSPENDING with
      | some pending => (sm, db, .setCurrent pending)
      | none => (sm, db, .raised)
  | .setCurrent pending =>
      match getCurrent M sm with
      | some current => (sm, db, .setConnect pending current)
      | none => (sm, db, .raised)
  | .setConnect pending current =>
      if D.connects db current then (sm, db, .setAlter pending) else (sm, db, .raised)
  | .setAlter pending =>
      match D.alterUser db pending.username pending.password with
      | some db' => (sm, db', .returned "setSecret")
      | none => (sm, db, .raised)
  | .testPending token =>
      match getSecretValue M sm token .AWSPENDING with
      | some pending => (sm, db, .testConnect pending)
      | none => (sm, db, .raised)
  | .testConnect pending =>
      if D.connects db pending then (sm, db, .returned "testSecret") else (sm, db, .raised)
  | .finishDescribe token =>
      if M.labelled sm .AWSCURRENT = some token then (sm, db, .returned "finishSecret")
      else (sm, db, .finishMove token (M.labelled sm .AWSCURRENT))
  | .finishMove token currentVersion =>
      match M.updateSecretVersionStage sm token currentVersion with
      | some sm' => (sm', db, .returned "finishSecret")
      | none => (sm, db, .raised)
  | .returned name => (sm, db, .returned name)
  | .raised => (sm, db, .raised)

/-- An invocation starts, or one of them makes its next call.  One that crashes is
    never given another turn. -/
inductive Event (V : Type) where
  | invoke (step : String) (token : V)
  | turn (k : Nat) (password : String)
  deriving DecidableEq, Repr

def step : Event V → World M D → World M D
  | .invoke name token, w => { w with calls := w.calls ++ [handler name token] }
  | .turn k password, w =>
      match w.calls[k]? with
      | none => w
      | some pc =>
          let next := advance w.sm w.db password pc
          ⟨next.1, next.2.1, w.calls.set k next.2.2⟩

/-! ## What one call can do -/

section Calls

variable {sm : M.State} {db : D.State} {password : String} {pc : Pc V} {v : V} {y : SecretDict}

/-- What was read under a stage is the version that bears it. -/
theorem version_of_get {stage : Stage} (h : getSecretValue M sm v stage = some y) :
    M.labelled sm stage = some v ∧ M.version sm v = some y := by
  rw [getSecretValue] at h
  by_cases hl : M.labelled sm stage = some v
  · rw [if_pos hl] at h
    exact ⟨hl, h⟩
  · rw [if_neg hl] at h
    exact nomatch h

/-- In particular the current one. -/
theorem version_of_current (h : getCurrent M sm = some y) :
    ∃ c, M.labelled sm .AWSCURRENT = some c ∧ M.version sm c = some y :=
  Option.bind_eq_some_iff.mp h

/-- Only `ALTER USER` touches the database. -/
theorem advance_db (sm : M.State) (db : D.State) (password : String) (pc : Pc V) :
    (advance sm db password pc : M.State × D.State × Pc V).2.1 = db ∨
      ∃ pending, pc = .setAlter pending ∧
        D.alterUser db pending.username pending.password =
          some (advance sm db password pc : M.State × D.State × Pc V).2.1 := by
  cases pc with
  | setAlter pending =>
      rw [advance]
      cases halter : D.alterUser db pending.username pending.password with
      | none => exact Or.inl rfl
      | some db' => exact Or.inr ⟨pending, rfl, halter⟩
  | createCheck token | createRead token | createPut token secret | setPending token
  | setCurrent pending | setConnect pending current | testPending token | testConnect pending
  | finishDescribe token | finishMove token current =>
      rw [advance]
      split <;> exact Or.inl rfl
  | _ => exact Or.inl rfl

/-- A version that has a value keeps it. -/
theorem advance_version (h : M.version sm v = some y) :
    M.version (advance sm db password pc : M.State × D.State × Pc V).1 v = some y := by
  -- two requests write versions: the put of the new one, and the move of the label
  cases pc with
  | createPut token secret =>
      rw [advance]
      cases hput : M.putSecretValue sm token secret with
      | none => exact h
      | some sm' =>
          obtain ⟨hfree, hversion, -⟩ := M.put_spec hput
          show M.version sm' v = some y
          rw [hversion v]
          by_cases hv : v = token
          · -- the value put under a token that has one is the one it has
            subst hv
            rw [if_pos rfl]
            rcases hfree with hnone | hsame
            · rw [hnone] at h
              exact nomatch h
            · rw [← hsame, h]
          · rw [if_neg hv]
            exact h
  -- the move writes a label only
  | finishMove token current =>
      rw [advance]
      cases hmove : M.updateSecretVersionStage sm token current with
      | none => exact h
      | some sm' => exact ((M.update_spec hmove).2.2.1 v).trans h
  | createCheck token | createRead token | setPending token | setCurrent pending
  | setConnect pending current | setAlter pending | testPending token | testConnect pending
  -- what reads, and what goes to the database, leaves the secret store alone
  | finishDescribe token =>
      rw [advance]
      split <;> exact h
  | _ => exact h

/-- A new value is the one that an invocation of `createSecret` is about to put. -/
theorem advance_version_new
    (h : M.version (advance sm db password pc : M.State × D.State × Pc V).1 v = some y) :
    M.version sm v = some y ∨ pc = .createPut v y := by
  -- a new version is the one the put was asked for
  cases pc with
  | createPut token secret =>
      rw [advance] at h
      cases hput : M.putSecretValue sm token secret with
      | none =>
          rw [hput] at h
          exact Or.inl h
      | some sm' =>
          rw [hput] at h
          replace h : M.version sm' v = some y := h
          rw [(M.put_spec hput).2.1 v] at h
          by_cases hv : v = token
          · subst hv
            rw [if_pos rfl] at h
            obtain rfl := Option.some.inj h
            exact Or.inr rfl
          · rw [if_neg hv] at h
            exact Or.inl h
  | finishMove token current =>
      rw [advance] at h
      cases hmove : M.updateSecretVersionStage sm token current with
      | none =>
          rw [hmove] at h
          exact Or.inl h
      | some sm' =>
          rw [hmove] at h
          exact Or.inl (((M.update_spec hmove).2.2.1 v).symm.trans h)
  | createCheck token | createRead token | setPending token | setCurrent pending
  | setConnect pending current | setAlter pending | testPending token | testConnect pending
  | finishDescribe token =>
      rw [advance] at h
      split at h <;> exact Or.inl h
  | _ => exact Or.inl h

/-- `AWSCURRENT` stays, or an invocation moves it to its own token, which has a value. -/
theorem advance_current (sm : M.State) (db : D.State) (password : String) (pc : Pc V)
    (hcurrent : M.labelled sm .AWSCURRENT ≠ none) :
    M.labelled (advance sm db password pc : M.State × D.State × Pc V).1 .AWSCURRENT =
        M.labelled sm .AWSCURRENT ∨
      ∃ token current, pc = .finishMove token current ∧ M.version sm token ≠ none ∧
        M.labelled (advance sm db password pc : M.State × D.State × Pc V).1 .AWSCURRENT = some token := by
  -- the label is on the current stage; only the last move takes it elsewhere
  cases pc with
  | createPut token secret =>
      rw [advance]
      cases hput : M.putSecretValue sm token secret with
      | none => exact Or.inl rfl
      -- a put on a store with a current version leaves the label there
      | some sm' => exact Or.inl ((M.put_spec hput).2.2 hcurrent)
  | finishMove token current =>
      rw [advance]
      cases hmove : M.updateSecretVersionStage sm token current with
      | none => exact Or.inl rfl
      | some sm' =>
          obtain ⟨-, hthere, -, hlabel⟩ := M.update_spec hmove
          exact Or.inr ⟨token, current, rfl, hthere, hlabel⟩
  | createCheck token | createRead token | setPending token | setCurrent pending
  | setConnect pending current | setAlter pending | testPending token | testConnect pending
  | finishDescribe token =>
      rw [advance]
      split <;> exact Or.inl rfl
  | _ => exact Or.inl rfl

end Calls

/-! ## What an invocation has read

    A counter carries what its invocation has read of the secret.  What can be said of
    it by `P`, for a value read under a version, and by `Q`, for one to be put under its
    token, stays true of it from call to call. -/

/-- What every invocation may be taken to hold. -/
def Holds (P : SecretDict → Prop) (Q : V → SecretDict → Prop) : Pc V → Prop
  | .createDraw token secret | .createPut token secret => Q token secret
  | .setCurrent pending | .setConnect pending _ | .setAlter pending | .testConnect pending => P pending
  | _ => True

omit [DecidableEq V] in
/-- What an invocation holds may be said more weakly. -/
theorem Holds.mono {P P' : SecretDict → Prop} {Q : V → SecretDict → Prop} {pc : Pc V}
    (hP : ∀ x, P x → P' x) (h : Holds P Q pc) : Holds P' Q pc := by
  cases pc with
  | setCurrent pending | setConnect pending current | setAlter pending | testConnect pending =>
      exact hP pending h
  | createDraw token secret | createPut token secret => exact h
  | _ => trivial

omit [DecidableEq V] in
/-- An invocation begins with nothing in its hands. -/
theorem handler_holds (P : SecretDict → Prop) (Q : V → SecretDict → Prop) (name : String)
    (token : V) : Holds P Q (handler name token) := by
  rw [handler]
  split_ifs <;> trivial

/-- `tokenOf pc` is the token an invocation was given, while it still has it. -/
def tokenOf : Pc V → Option V
  | .createCheck token | .createRead token | .createDraw token _ | .createPut token _
  | .setPending token | .testPending token | .finishDescribe token | .finishMove token _ => some token
  | _ => none

/-- The reading calls take what the versions say, and a new password changes nothing else. -/
theorem advance_holds {P : SecretDict → Prop} {Q : V → SecretDict → Prop} {sm : M.State}
    {db : D.State} {password : String} {pc : Pc V}
    (hpending : ∀ token x, tokenOf pc = some token → M.version sm token = some x → P x)
    (hcurrent : ∀ token x, tokenOf pc = some token → getCurrent M sm = some x → Q token x)
    (hdraw : ∀ token x, Q token x → Q token { x with password := password }) (h : Holds P Q pc) :
    Holds P Q (advance sm db password pc : M.State × D.State × Pc V).2.2 := by
  -- what the invocation will hold is what it reads now
  cases pc with
  | createRead token =>
      rw [advance]
      cases hget : getCurrent M sm with
      | none => trivial
      -- the new secret is drawn from the current one
      | some secret => exact hcurrent token secret rfl hget
  | createDraw token secret => exact hdraw token secret h
  | setPending token | testPending token =>
      rw [advance]
      cases hget : getSecretValue M sm token .AWSPENDING with
      | none => trivial
      -- the pending secret is the version of its own token
      | some pending => exact hpending token pending rfl (version_of_get hget).2
  | setCurrent pending =>
      rw [advance]
      cases hget : getCurrent M sm with
      | none => trivial
      | some current => exact h
  | setConnect pending current =>
      rw [advance]
      split
      · exact h
      · trivial
  | createCheck token | createPut token secret | setAlter pending | testConnect pending
  | finishDescribe token | finishMove token current =>
      rw [advance]
      split <;> trivial
  | _ => trivial

/-! ## Any tokens, in any order -/

/-- The password of `x` is the one some version stores for its user. -/
def Stored (sm : M.State) (x : SecretDict) : Prop :=
  ∃ v y, M.version sm v = some y ∧ y.username = x.username ∧ y.password = x.password

/-- What every run keeps: `Stored` passwords only, for the user `u`, and a value under
    `AWSCURRENT`. -/
structure Kept (u : String) (w : World M D) : Prop where
  named : ∀ v y, M.version w.sm v = some y → D.plain y.username = true
  stored : ∀ x, x.username = u → D.connects w.db x = true → Stored w.sm x
  current : ∃ v, M.labelled w.sm .AWSCURRENT = some v ∧ M.version w.sm v ≠ none
  holds : ∀ pc ∈ w.calls,
    Holds (fun x => ∃ v, M.version w.sm v = some x) (fun _ x => D.plain x.username = true) pc

section Steps

variable {w : World M D} {e : Event V} {u : String} {v : V} {y : SecretDict}

/-- A stored version stays as it is, whatever happens. -/
theorem step_version (h : M.version w.sm v = some y) : M.version (step e w).sm v = some y := by
  cases e with
  | invoke name token => exact h
  | turn k password =>
      rw [step]
      cases w.calls[k]? with
      | none => exact h
      | some pc => exact advance_version h

/-- All that a state has stored, the next one has. -/
theorem step_kept (h : Kept u w) : Kept u (step e w) := by
  cases e with
  -- an invocation that joins holds nothing yet
  | invoke name token =>
      refine ⟨h.named, h.stored, h.current, ?_⟩
      intro pc hpc
      rcases List.mem_append.mp hpc with hold | hnew
      · exact h.holds pc hold
      · obtain rfl := List.mem_singleton.mp hnew
        exact handler_holds _ _ name token
  | turn k password =>
      rw [step]
      cases hk : w.calls[k]? with
      | none => exact h
      | some pc =>
          have hpc := h.holds pc (List.mem_of_getElem? hk)
          have hkeep : ∀ v y, M.version w.sm v = some y →
              M.version (advance w.sm w.db password pc : M.State × D.State × Pc V).1 v = some y :=
            fun v y hv => advance_version hv
          have hstored : ∀ x, Stored w.sm x →
              Stored (advance w.sm w.db password pc : M.State × D.State × Pc V).1 x := by
            rintro x ⟨v, y, hv, hu, hp⟩
            exact ⟨v, y, hkeep v y hv, hu, hp⟩
          refine ⟨?_, ?_, ?_, ?_⟩
          · intro v y hv
            rcases advance_version_new hv with hold | rfl
            · exact h.named v y hold
            · exact hpc
          · intro x hx hconn
            rcases advance_db w.sm w.db password pc with
              hsame | ⟨pending, rfl, halter⟩
            · replace hconn : D.connects w.db x = true := by
                rw [← hconn]
                exact congrArg (D.connects · x) hsame.symm
              exact hstored x (h.stored x hx hconn)
            · -- the new password was read from a version
              obtain ⟨v, hv⟩ := hpc
              replace hconn := (D.alter_spec (h.named v pending hv) halter x).symm.trans hconn
              by_cases hu : x.username = pending.username
              · rw [if_pos hu, Bool.and_eq_true, decide_eq_true_eq] at hconn
                exact ⟨v, pending, hkeep v pending hv, hu.symm, hconn.2.symm⟩
              · rw [if_neg hu] at hconn
                exact hstored x (h.stored x hx hconn)
          · obtain ⟨v, hv, hvalue⟩ := h.current
            have hlabelled : M.labelled w.sm .AWSCURRENT ≠ none := by
              rw [hv]
              exact Option.some_ne_none v
            rcases advance_current w.sm w.db password pc hlabelled with hsame | ⟨token, current, -, hthere, hlabel⟩
            · obtain ⟨y, hy⟩ := Option.ne_none_iff_exists'.mp hvalue
              exact ⟨v, hsame.trans hv, by rw [hkeep v y hy]; exact Option.some_ne_none y⟩
            · obtain ⟨y, hy⟩ := Option.ne_none_iff_exists'.mp hthere
              exact ⟨token, hlabel, by rw [hkeep token y hy]; exact Option.some_ne_none y⟩
          · have hread : ∀ x, (∃ v, M.version w.sm v = some x) → ∃ v,
                M.version (advance w.sm w.db password pc : M.State × D.State × Pc V).1 v = some x := by
              rintro x ⟨v, hv⟩
              exact ⟨v, hkeep v x hv⟩
            intro pc' hpc'
            rcases List.mem_or_eq_of_mem_set hpc' with hold | rfl
            · exact (h.holds pc' hold).mono hread
            · refine (advance_holds ?_ ?_ ?_ hpc).mono hread
              · exact fun token x _ hx => ⟨token, hx⟩
              · intro token x _ hx
                obtain ⟨c, -, hc⟩ := version_of_current hx
                exact h.named c x hc
              · exact fun _ _ hx => hx

end Steps

/-! A plain vault and a plain server, for the instances. -/

structure Vault where
  values : Nat → Option SecretDict
  current : Option Nat
  pending : Option Nat

def Vault.labelled (s : Vault) : Stage → Option Nat
  | .AWSCURRENT => s.current
  | .AWSPENDING => s.pending

def Vault.put (s : Vault) (v : Nat) (x : SecretDict) : Option Vault :=
  if s.values v = none then some ⟨fun w => if w = v then some x else s.values w, s.current, some v⟩
  else if s.values v = some x then some s
  else none

def Vault.move (s : Vault) (v : Nat) (o : Option Nat) : Option Vault :=
  if s.current = o ∧ s.values v ≠ none then some ⟨s.values, some v, s.pending⟩ else none

/-- `PutSecretValue` of the example: a version is written once, and the current stage stays
    where it is. -/
theorem Vault.put_spec {s s' : Vault} {v : Nat} {x : SecretDict} (h : s.put v x = some s') :
    (s.values v = none ∨ s.values v = some x) ∧
      (∀ w, s'.values w = if w = v then some x else s.values w) ∧
      (s.labelled .AWSCURRENT ≠ none → s'.labelled .AWSCURRENT = s.labelled .AWSCURRENT) := by
  rw [Vault.put] at h
  split_ifs at h with hnone hsame
  · obtain rfl := Option.some.inj h
    exact ⟨Or.inl hnone, fun _ => rfl, fun _ => rfl⟩
  · obtain rfl := Option.some.inj h
    refine ⟨Or.inr hsame, fun w => ?_, fun _ => rfl⟩
    by_cases hw : w = v
    · rw [if_pos hw, hw, hsame]
    · rw [if_neg hw]

/-- `UpdateSecretVersionStage`: the stage moves only from the version it was said to be
    on. -/
theorem Vault.move_spec {s s' : Vault} {v : Nat} {o : Option Nat} (h : s.move v o = some s') :
    s.labelled .AWSCURRENT = o ∧ s.values v ≠ none ∧ (∀ w, s'.values w = s.values w) ∧
      s'.labelled .AWSCURRENT = some v := by
  rw [Vault.move] at h
  by_cases ho : s.current = o ∧ s.values v ≠ none
  · rw [if_pos ho] at h
    obtain rfl := Option.some.inj h
    exact ⟨ho.1, ho.2, fun _ => rfl, rfl⟩
  · rw [if_neg ho] at h
    exact nomatch h

/-- A vault that keeps what it is given. -/
def vault : SecretsManager Nat where
  State := Vault
  version := Vault.values
  labelled := Vault.labelled
  putSecretValue := Vault.put
  updateSecretVersionStage := Vault.move
  put_spec := Vault.put_spec
  update_spec := Vault.move_spec

/-- The password of each user of a server. -/
abbrev Logins := String → Option String

/-- The one database of the server. -/
def serves (host : String) (port : Nat) (dbname : String) : Bool :=
  decide (host = "db" ∧ port = 5432 ∧ dbname = "stellar_save")

def Logins.connects (d : Logins) (x : SecretDict) : Bool :=
  serves x.host x.port x.dbname && decide (d x.username = some x.password)

def Logins.alter (d : Logins) (u p : String) : Option Logins :=
  if d u = none then none else some fun name => if name = u then some p else d name

/-- Whoever gets in is at an address the database serves. -/
theorem Logins.connects_serves {d : Logins} {x : SecretDict} (h : d.connects x = true) :
    serves x.host x.port x.dbname = true :=
  (Bool.and_eq_true_iff.mp h).1

/-- `ALTER USER` changes one user's password, and nobody else's way in. -/
theorem Logins.alter_spec {d d' : Logins} {u p : String} (_ : decide (u = "app") = true)
    (h : d.alter u p = some d') (x : SecretDict) : d'.connects x =
      if x.username = u then serves x.host x.port x.dbname && decide (x.password = p)
      else d.connects x := by
  rw [Logins.alter] at h
  split_ifs at h
  obtain rfl := Option.some.inj h
  by_cases hx : x.username = u
  · simp [Logins.connects, hx, eq_comm]
  · simp [Logins.connects, hx]

/-- A server of one database, with a password for each of its users. -/
def server : Database where
  State := Logins
  serves := serves
  plain name := decide (name = "app")
  connects := Logins.connects
  alterUser := Logins.alter
  connects_serves := Logins.connects_serves
  alter_spec := Logins.alter_spec

/-- The value before the rotation, under version 1. -/
def before : SecretDict := ⟨"db", 5432, "stellar_save", "app", "old"⟩

def start : World vault server :=
  ⟨⟨fun v => if v = 1 then some before else none, some 1, none⟩,
    fun name : String => if name = "app" then some "old" else none, []⟩

/-- One version is stored at the start. -/
theorem start_version {v : Nat} {y : SecretDict} (h : vault.version start.sm v = some y) :
    v = 1 ∧ y = before := by
  replace h : (if v = 1 then some before else none) = some y := h
  by_cases hv : v = 1
  · rw [if_pos hv] at h
    exact ⟨hv, (Option.some.inj h).symm⟩
  · rw [if_neg hv] at h
    exact nomatch h

/-- And the old password is the way in. -/
theorem start_connects {x : SecretDict} (h : server.connects start.db x = true) :
    x.username = "app" ∧ x.password = "old" := by
  replace h : (if x.username = "app" then some "old" else none) = some x.password :=
    of_decide_eq_true (Bool.and_eq_true_iff.mp h).2
  by_cases hx : x.username = "app"
  · rw [if_pos hx] at h
    exact ⟨hx, (Option.some.inj h).symm⟩
  · rw [if_neg hx] at h
    exact nomatch h

/-- **NO PASSWORD IS LOST**: whatever invocations for whatever tokens interleave, fail or
    crash, the database takes no password for the user but one that a version stores, no
    stored value changes, and `AWSCURRENT` is on a version with a value. -/
theorem no_password_lost (w : World M D) (hcalls : w.calls = []) (u : String)
    (hnamed : ∀ v y, M.version w.sm v = some y → D.plain y.username = true)
    (hstored : ∀ x, x.username = u → D.connects w.db x = true → Stored w.sm x)
    (hcurrent : ∃ v, M.labelled w.sm .AWSCURRENT = some v ∧ M.version w.sm v ≠ none)
    (es : List (Event V)) :
    (∀ x, x.username = u → D.connects (exec step es w).db x = true → Stored (exec step es w).sm x) ∧
      (∀ v y, M.version w.sm v = some y → M.version (exec step es w).sm v = some y) ∧
      ∃ v, M.labelled (exec step es w).sm .AWSCURRENT = some v ∧
        M.version (exec step es w).sm v ≠ none := by
  have hstart : Kept u w := by
    refine ⟨hnamed, hstored, hcurrent, ?_⟩
    rw [hcalls]
    exact fun pc hpc => absurd hpc List.not_mem_nil
  have hend : Kept u (exec step es w) :=
    exec_invariant_always (I := Kept u) (fun _ _ h => step_kept h) hstart es
  refine ⟨hend.stored, ?_, hend.current⟩
  intro v y hv
  exact exec_invariant_always (I := fun w' : World M D => M.version w'.sm v = some y)
    (fun _ _ h => step_version h) hv es

/-- Two tokens at once: each has put its own version, and one has set its password. -/
def crossed : List (Event Nat) :=
  [.invoke "createSecret" 2, .invoke "createSecret" 3, .turn 0 "", .turn 1 "", .turn 0 "", .turn 1 "",
    .turn 0 "two", .turn 1 "three", .turn 0 "", .turn 1 "", .invoke "setSecret" 3, .turn 2 "",
    .turn 2 "", .turn 2 "", .turn 2 ""]

/-- Two rotations that cross, and the password of the one that came last: it is stored. -/
theorem no_password_lost_instance :
    (∀ x, x.username = "app" → server.connects (exec step crossed start).db x = true →
        Stored (exec step crossed start).sm x) ∧
      (exec step crossed start).db "app" = some "three" :=
  ⟨(no_password_lost start rfl "app"
      (fun _ _ h => by rw [(start_version h).2]; rfl)
      (fun x hx h => ⟨1, before, rfl, hx.symm, (start_connects h).2.symm⟩)
      ⟨1, rfl, Option.some_ne_none before⟩ crossed).1, by decide⟩

/-! ## One token, with its steps in order

    Secrets Manager gives a rotation one token, and calls `finishSecret` when a
    `testSecret` has come back.  Any step may still run several times, and side by side. -/

/-- `x` is `y` with another password. -/
def Renewed (y x : SecretDict) : Prop := x = { y with password := x.password }

/-- The database takes the value of `t`. -/
def Takes (t : V) (w : World M D) : Prop :=
  ∃ x, M.version w.sm t = some x ∧ D.connects w.db x = true

/-- The counters of an invocation that a test has come before, its own included. -/
def AfterTest : Pc V → Prop
  | .finishDescribe _ | .finishMove _ _ => True
  | .returned name => name = "testSecret"
  | _ => False

/-- One rotation: every invocation is for `t`, and `finishSecret` waits for a test. -/
def InOrder (t : V) : Event V → World M D → Prop
  | .invoke name token, w => token = t ∧ (name = "finishSecret" → .returned "testSecret" ∈ w.calls)
  | .turn _ _, _ => True

/-- What a rotation of `y` under the token `t` keeps. -/
structure Rotating (c t : V) (y : SecretDict) (w : World M D) : Prop where
  old : M.version w.sm c = some y
  new : ∀ x, M.version w.sm t = some x → Renewed y x
  label : M.labelled w.sm .AWSCURRENT = some c ∨ M.labelled w.sm .AWSCURRENT = some t
  holds : ∀ pc ∈ w.calls, Holds (fun x => M.version w.sm t = some x) (fun _ x => Renewed y x) pc
  sole : ∀ pc ∈ w.calls, ∀ token, tokenOf pc = some token → token = t
  way : D.connects w.db y = true ∨ Takes t w
  tested : ∀ pc ∈ w.calls, AfterTest pc → Takes t w
  moved : M.labelled w.sm .AWSCURRENT = some t → Takes t w

section Rotation

variable {c t : V} {y x : SecretDict} {w : World M D} {e : Event V}

/-- A new password leaves the rest of the secret. -/
theorem Renewed.draw (h : Renewed y x) (password : String) :
    Renewed y { x with password := password } := by
  rw [Renewed] at h ⊢
  rw [h]

/-- The user name is part of that rest. -/
theorem Renewed.plain (hplain : D.plain y.username = true) (h : Renewed y x) :
    D.plain x.username = true := by
  rw [h]
  exact hplain

/-- So is the address. -/
theorem Renewed.serves (h : Renewed y x) :
    D.serves x.host x.port x.dbname = D.serves y.host y.port y.dbname := by
  rw [h]

/-- In a rotation the database serves the address of the secret. -/
theorem Rotating.serves (h : Rotating c t y w) : D.serves y.host y.port y.dbname = true := by
  rcases h.way with hold | ⟨x, hx, hconn⟩
  · exact D.connects_serves hold
  · exact (h.new x hx).serves.symm.trans (D.connects_serves hconn)

/-- The current value is the old one, or the new one. -/
theorem Rotating.current (h : Rotating c t y w) (hx : getCurrent M w.sm = some x) :
    Renewed y x := by
  obtain ⟨v, hv, hvalue⟩ := version_of_current hx
  rcases h.label with hlabel | hlabel
  · obtain rfl := Option.some.inj (hv.symm.trans hlabel)
    obtain rfl := Option.some.inj (hvalue.symm.trans h.old)
    rfl
  · obtain rfl := Option.some.inj (hv.symm.trans hlabel)
    exact h.new x hvalue

omit [DecidableEq V] in
/-- An invocation works on the token it was called with. -/
theorem handler_token {name : String} {token token' : V}
    (h : tokenOf (handler name token) = some token') : token' = token := by
  rw [handler] at h
  split_ifs at h <;> first | exact (Option.some.inj h).symm | exact nomatch h

omit [DecidableEq V] in
/-- Only the last step finds the test behind it. -/
theorem handler_afterTest {name : String} {token : V} (h : AfterTest (handler name token)) :
    name = "finishSecret" := by
  rw [handler] at h
  split_ifs at h with _ _ _ hname
  · exact h.elim
  · exact h.elim
  · exact h.elim
  · exact hname
  · exact h.elim

/-- An invocation keeps its token or forgets it. -/
theorem advance_token {sm : M.State} {db : D.State} {password : String} {pc : Pc V} {token : V}
    (h : tokenOf (advance sm db password pc : M.State × D.State × Pc V).2.2 = some token) :
    tokenOf pc = some token := by
  cases pc with
  | createCheck token | createRead token | createPut token secret | setPending token
  | setCurrent pending | setConnect pending current | setAlter pending | testPending token
  | testConnect pending | finishDescribe token | finishMove token current =>
      rw [advance] at h
      split at h <;> first | exact h | exact nomatch h
  | _ => exact h

/-- A test comes back from a database that takes the pending value. -/
theorem advance_afterTest {sm : M.State} {db : D.State} {password : String} {pc : Pc V}
    (h : AfterTest (advance sm db password pc : M.State × D.State × Pc V).2.2) :
    AfterTest pc ∨ ∃ pending, pc = .testConnect pending ∧ D.connects db pending = true := by
  -- the only way past the test is a login that went through
  cases pc with
  | testConnect pending =>
      rw [advance] at h
      by_cases hconn : D.connects db pending = true
      · exact Or.inr ⟨pending, rfl, hconn⟩
      · rw [if_neg hconn] at h
        exact h.elim
  | finishDescribe token | finishMove token current => exact Or.inl trivial
  | createCheck token | createPut token secret =>
      rw [advance] at h
      split at h
      · exact absurd (show "createSecret" = "testSecret" from h) (by decide)
      · exact h.elim
  | setAlter pending =>
      rw [advance] at h
      split at h
      · exact absurd (show "setSecret" = "testSecret" from h) (by decide)
      · exact h.elim
  | createRead token | setPending token | setCurrent pending | setConnect pending current
  | testPending token =>
      rw [advance] at h
      split at h <;> exact h.elim
  | _ => exact Or.inl h

/-- One call, in a rotation that keeps its invariant. -/
theorem rotating_turn {k : Nat} {password : String} {pc : Pc V} (hk : w.calls[k]? = some pc)
    (hplain : D.plain y.username = true) (h : Rotating c t y w) :
    Rotating c t y (step (.turn k password) w) := by
  have hin := List.mem_of_getElem? hk
  have hpc := h.holds pc hin
  have hstep : step (.turn k password) w =
      ⟨(advance w.sm w.db password pc : M.State × D.State × Pc V).1,
        (advance w.sm w.db password pc : M.State × D.State × Pc V).2.1,
        w.calls.set k (advance w.sm w.db password pc : M.State × D.State × Pc V).2.2⟩ := by
    rw [step, hk]
  generalize hnext : (advance w.sm w.db password pc : M.State × D.State × Pc V) = next at hstep
  have hversion : ∀ v x, M.version w.sm v = some x → M.version next.1 v = some x := by
    intro v x hv
    rw [← hnext]
    exact advance_version hv
  -- the statement changes the password to the one under `t`, and to no other
  have hdb : next.2.1 = w.db ∨ ∃ x, M.version w.sm t = some x ∧ D.connects next.2.1 x = true := by
    rcases advance_db w.sm w.db password pc with
      hsame | ⟨pending, rfl, halter⟩
    · exact Or.inl (hnext ▸ hsame)
    · right
      have hrenewed := h.new pending hpc
      refine ⟨pending, hpc, ?_⟩
      rw [← hnext, D.alter_spec (hrenewed.plain hplain) halter, if_pos rfl, hrenewed.serves, h.serves]
      simp
  have htakes : Takes t w → Takes t (step (.turn k password) w) := by
    rintro ⟨x, hx, hconn⟩
    rw [hstep]
    rcases hdb with hsame | ⟨x', hx', hconn'⟩
    · exact ⟨x, hversion t x hx, by rw [hsame]; exact hconn⟩
    · exact ⟨x', hversion t x' hx', hconn'⟩
  have hlabelled : M.labelled w.sm .AWSCURRENT ≠ none := by
    rcases h.label with hlabel | hlabel <;> rw [hlabel] <;> exact Option.some_ne_none _
  have hlabel : M.labelled next.1 .AWSCURRENT = M.labelled w.sm .AWSCURRENT ∨
      AfterTest pc ∧ M.labelled next.1 .AWSCURRENT = some t := by
    rw [← hnext]
    rcases advance_current w.sm w.db password pc hlabelled with hsame | ⟨token, current, rfl, -, hlabel⟩
    · exact Or.inl hsame
    · obtain rfl := h.sole _ hin token rfl
      exact Or.inr ⟨trivial, hlabel⟩
  have hcalls : ∀ pc' ∈ w.calls.set k next.2.2, pc' ∈ w.calls ∨ pc' = next.2.2 :=
    fun pc' hpc' => List.mem_or_eq_of_mem_set hpc'
  refine ⟨?_, ?_, ?_, ?_, ?_, ?_, ?_, ?_⟩
  · rw [hstep]
    exact hversion c y h.old
  · rw [hstep]
    intro x hx
    rw [← hnext] at hx
    rcases advance_version_new hx with hold | rfl
    · exact h.new x hold
    · exact hpc
  · rw [hstep]
    rcases hlabel with hsame | ⟨-, hmoved⟩
    · exact hsame ▸ h.label
    · exact Or.inr hmoved
  · rw [hstep]
    intro pc' hpc'
    rcases hcalls pc' hpc' with hold | rfl
    · exact (h.holds pc' hold).mono (hversion t)
    · rw [← hnext]
      refine (advance_holds ?_ ?_ ?_ hpc).mono (fun x hx => hnext ▸ hversion t x hx)
      · intro token x htoken hx
        obtain rfl := h.sole pc hin token htoken
        exact hx
      · exact fun _ x _ hx => h.current hx
      · exact fun _ _ hx => hx.draw password
  · rw [hstep]
    intro pc' hpc' token htoken
    rcases hcalls pc' hpc' with hold | rfl
    · exact h.sole pc' hold token htoken
    · rw [← hnext] at htoken
      exact h.sole pc hin token (advance_token htoken)
  · rcases hdb with hsame | ⟨x, hx, hconn⟩
    · refine h.way.imp (fun hold => ?_) htakes
      rw [hstep]
      show D.connects next.2.1 y = true
      rw [hsame]
      exact hold
    · rw [hstep]
      exact Or.inr ⟨x, hversion t x hx, hconn⟩
  · intro pc' hpc' hafter
    rw [hstep] at hpc'
    rcases hcalls pc' hpc' with hold | rfl
    · exact htakes (h.tested pc' hold hafter)
    · rw [← hnext] at hafter
      rcases advance_afterTest hafter with hbefore | ⟨pending, rfl, hconn⟩
      · exact htakes (h.tested pc hin hbefore)
      · exact htakes ⟨pending, hpc, hconn⟩
  · intro hmoved
    rw [hstep] at hmoved
    rcases hlabel with hsame | ⟨hafter, -⟩
    · exact htakes (h.moved (hsame.symm.trans hmoved))
    · exact htakes (h.tested pc hin hafter)

/-- One step of an orderly rotation keeps a way in. -/
theorem step_rotating (hplain : D.plain y.username = true) (he : InOrder t e w)
    (h : Rotating c t y w) : Rotating c t y (step e w) := by
  cases e with
  -- the test stands before the last step, by the order of the run
  | invoke name token =>
      obtain ⟨rfl, htest⟩ := he
      refine ⟨h.old, h.new, h.label, ?_, ?_, h.way, ?_, h.moved⟩
      · intro pc hpc
        rcases List.mem_append.mp hpc with hold | hnew
        · exact h.holds pc hold
        · obtain rfl := List.mem_singleton.mp hnew
          exact handler_holds _ _ name token
      · intro pc hpc token' htoken
        rcases List.mem_append.mp hpc with hold | hnew
        · exact h.sole pc hold token' htoken
        · obtain rfl := List.mem_singleton.mp hnew
          exact handler_token htoken
      · intro pc hpc hafter
        rcases List.mem_append.mp hpc with hold | hnew
        · exact h.tested pc hold hafter
        · obtain rfl := List.mem_singleton.mp hnew
          exact h.tested _ (htest (handler_afterTest hafter)) rfl
  | turn k password =>
      cases hk : w.calls[k]? with
      | none =>
          rw [step, hk]
          exact h
      | some pc => exact rotating_turn hk hplain h

end Rotation

/-- **ALWAYS A WAY IN**: while one rotation runs, whichever of its invocations are
    repeated, overlap or die, the database takes the value under `AWSCURRENT` or the one
    under the new version; and once `AWSCURRENT` is on the new version it takes that one. -/
theorem always_a_way_in (w : World M D) (hcalls : w.calls = []) (c t : V) (y : SecretDict)
    (hlabel : M.labelled w.sm .AWSCURRENT = some c) (hvalue : M.version w.sm c = some y)
    (hplain : D.plain y.username = true) (hconn : D.connects w.db y = true)
    (hnew : ∀ x, M.version w.sm t = some x → Renewed y x) (es : List (Event V))
    (horder : Along step (InOrder t) es w) :
    (∃ x, (getCurrent M (exec step es w).sm = some x ∨ M.version (exec step es w).sm t = some x) ∧
        D.connects (exec step es w).db x = true) ∧
      (M.labelled (exec step es w).sm .AWSCURRENT = some t →
        ∃ x, getCurrent M (exec step es w).sm = some x ∧
          D.connects (exec step es w).db x = true) := by
  -- before the run nothing is pending and the old login works
  have hstart : Rotating c t y w := by
    refine ⟨hvalue, hnew, Or.inl hlabel, ?_, ?_, Or.inl hconn, ?_, ?_⟩
    · rw [hcalls]
      exact fun pc hpc => absurd hpc List.not_mem_nil
    · rw [hcalls]
      exact fun pc hpc => absurd hpc List.not_mem_nil
    · rw [hcalls]
      exact fun pc hpc => absurd hpc List.not_mem_nil
    · intro hmoved
      obtain rfl := Option.some.inj (hlabel.symm.trans hmoved)
      exact ⟨y, hvalue, hconn⟩
  -- the invariant at the end says which login works
  have hend : Rotating c t y (exec step es w) :=
    exec_invariant (I := Rotating c t y) (fun _ _ he h => step_rotating hplain he h) hstart horder
  have hcurrent : M.labelled (exec step es w).sm .AWSCURRENT = some t →
      ∃ x, getCurrent M (exec step es w).sm = some x ∧ D.connects (exec step es w).db x = true := by
    intro hmoved
    obtain ⟨x, hx, htakes⟩ := hend.moved hmoved
    exact ⟨x, by rw [getCurrent, hmoved]; exact hx, htakes⟩
  refine ⟨?_, hcurrent⟩
  -- the label is still on the old version, or was moved by a finished test
  rcases hend.label with hold | hmoved
  · rcases hend.way with hway | ⟨x, hx, htakes⟩
    · exact ⟨y, Or.inl (by rw [getCurrent, hold]; exact hend.old), hway⟩
    · exact ⟨x, Or.inr hx, htakes⟩
  · obtain ⟨x, hx, htakes⟩ := hcurrent hmoved
    exact ⟨x, Or.inl hx, htakes⟩

/-- A rotation whose first `setSecret` dies before the statement, up to the end. -/
def rotation : List (Event Nat) :=
  [.invoke "createSecret" 2, .turn 0 "", .turn 0 "", .turn 0 "new", .turn 0 "", .invoke "setSecret" 2,
    .turn 1 "", .turn 1 "", .invoke "setSecret" 2, .turn 2 "", .turn 2 "", .turn 2 "", .turn 2 "",
    .invoke "testSecret" 2, .turn 3 "", .turn 3 "", .invoke "finishSecret" 2, .turn 4 "", .turn 4 ""]

/-- A whole rotation, and the way in at its end. -/
theorem always_a_way_in_instance :
    vault.labelled (exec step rotation start).sm .AWSCURRENT = some 2 ∧
      ∃ x, getCurrent vault (exec step rotation start).sm = some x ∧
        server.connects (exec step rotation start).db x = true :=
  have hmoved : vault.labelled (exec step rotation start).sm .AWSCURRENT = some 2 := by decide
  ⟨hmoved, (always_a_way_in start rfl 1 2 before rfl rfl rfl rfl
    (fun x h => nomatch (show (none : Option SecretDict) = some x from h)) rotation
    (by simp only [rotation, along_cons, along_nil, InOrder]; decide)).2 hmoved⟩

/-! ## A password that is not under `AWSCURRENT`

    `set_secret` logs in with the value under `AWSCURRENT` only.  Where it has changed the
    password and its answer is lost, every further attempt is refused at the login. -/

/-- The counters of invocations that `x` is no way in for. -/
def Refused (x : SecretDict) : Pc V → Prop
  | .setConnect _ current => current = x
  | .setAlter _ | .finishDescribe _ | .finishMove _ _ => False
  | _ => True

/-- `AWSCURRENT` is on `v` with the value `x`, and `n` invocations of `setSecret` have come back. -/
structure Stuck (v : V) (x : SecretDict) (d : D.State) (n : Nat) (w : World M D) : Prop where
  label : M.labelled w.sm .AWSCURRENT = some v
  value : M.version w.sm v = some x
  db : w.db = d
  refused : ∀ pc ∈ w.calls, Refused x pc
  count : w.calls.count (.returned "setSecret") = n

section Wedge

variable {v : V} {x : SecretDict} {d : D.State} {n : Nat} {w : World M D} {e : Event V}

omit [DecidableEq V] in
/-- An invocation other than the last begins before its login. -/
theorem handler_refused {name : String} (h : name ≠ "finishSecret") (x : SecretDict) (token : V) :
    Refused x (handler name token) ∧ handler name token ≠ .returned "setSecret" := by
  rw [handler]
  split_ifs <;> first | contradiction | exact ⟨trivial, by simp⟩

/-- An invocation that is refused stays so, and comes back from `setSecret` only if it had. -/
theorem advance_refused (password : String) {sm : M.State} {pc : Pc V}
    (hcurrent : getCurrent M sm = some x) (hconn : D.connects d x = false) (h : Refused x pc) :
    Refused x (advance sm d password pc : M.State × D.State × Pc V).2.2 ∧
      ((advance sm d password pc : M.State × D.State × Pc V).2.2 = .returned "setSecret" ↔
        pc = .returned "setSecret") := by
  cases pc with
  | setCurrent pending =>
      rw [advance, hcurrent]
      exact ⟨rfl, by simp⟩
  | setConnect pending current =>
      obtain rfl : current = x := h
      rw [advance, hconn]
      exact ⟨trivial, by simp⟩
  | setAlter pending | finishDescribe token | finishMove token current => exact h.elim
  | createCheck token | createRead token | createPut token secret | setPending token
  | testPending token | testConnect pending =>
      rw [advance]
      split <;> exact ⟨trivial, by simp⟩
  | createDraw token secret => exact ⟨trivial, by simp [advance]⟩
  | returned name => exact ⟨trivial, Iff.rfl⟩
  | raised => exact ⟨trivial, Iff.rfl⟩

/-- One step: a password that does not get in stays so, and no new one is set. -/
theorem step_stuck (hconn : D.connects d x = false) (he : ∀ token, e ≠ .invoke "finishSecret" token)
    (h : Stuck v x d n w) : Stuck v x d n (step e w) := by
  -- the last step is not called, so nothing moves the label
  cases e with
  | invoke name token =>
      have hname : name ≠ "finishSecret" := by
        rintro rfl
        exact he token rfl
      obtain ⟨hrefused, hback⟩ := handler_refused hname x token
      refine ⟨h.label, h.value, h.db, ?_, ?_⟩
      · intro pc hpc
        rcases List.mem_append.mp hpc with hold | hnew
        · exact h.refused pc hold
        · obtain rfl := List.mem_singleton.mp hnew
          exact hrefused
      · rw [step, List.count_append, h.count, List.count_singleton, if_neg (by simpa using hback),
          Nat.add_zero]
  -- the login that fails is tried again and fails again
  | turn k password =>
      rw [step]
      cases hk : w.calls[k]? with
      | none => exact h
      | some pc =>
          have hpc := h.refused pc (List.mem_of_getElem? hk)
          have hcurrent : getCurrent M w.sm = some x := by
            rw [getCurrent, h.label]
            exact h.value
          obtain ⟨hrefused, hback⟩ := advance_refused password hcurrent hconn hpc
          rw [← h.db] at hrefused hback
          refine ⟨?_, advance_version h.value, ?_, ?_, ?_⟩
          · have hlabelled : M.labelled w.sm .AWSCURRENT ≠ none := by
              rw [h.label]
              exact Option.some_ne_none v
            rcases advance_current w.sm w.db password pc hlabelled with hsame | ⟨token, current, rfl, -⟩
            · exact hsame.trans h.label
            · exact hpc.elim
          · rcases advance_db w.sm w.db password pc with
              hsame | ⟨pending, rfl, -⟩
            · exact hsame.trans h.db
            · exact hpc.elim
          · intro pc' hpc'
            rcases List.mem_or_eq_of_mem_set hpc' with hold | rfl
            · exact h.refused pc' hold
            · exact hrefused
          · obtain ⟨hlt, hget⟩ := List.getElem?_eq_some_iff.mp hk
            have hpos : pc = .returned "setSecret" → 0 < w.calls.count (.returned "setSecret") := by
              rintro rfl
              exact List.count_pos_iff.mpr (List.mem_of_getElem? hk)
            rw [List.count_set hlt, hget]
            by_cases hset : pc = .returned "setSecret"
            · have hone := hpos hset
              have hcount := h.count
              rw [if_pos (beq_iff_eq.mpr hset), if_pos (beq_iff_eq.mpr (hback.mpr hset))]
              omega
            · rw [if_neg (mt beq_iff_eq.mp hset), if_neg (mt beq_iff_eq.mp (mt hback.mp hset))]
              exact h.count

end Wedge

/-- **SETSECRET CANNOT BE REPEATED**: once the database refuses the value under
    `AWSCURRENT`, and until a `finishSecret` is called, no invocation of `setSecret` comes
    back, for any token and however often it is tried; the database and `AWSCURRENT` stay
    as they are. -/
theorem no_way_back (w : World M D) (v : V) (x : SecretDict)
    (hlabel : M.labelled w.sm .AWSCURRENT = some v) (hvalue : M.version w.sm v = some x)
    (hconn : D.connects w.db x = false) (hrefused : ∀ pc ∈ w.calls, Refused x pc)
    (es : List (Event V)) (hes : ∀ token, .invoke "finishSecret" token ∉ es) :
    (exec step es w).db = w.db ∧ getCurrent M (exec step es w).sm = some x ∧
      (exec step es w).calls.count (.returned "setSecret") =
        w.calls.count (.returned "setSecret") := by
  have hrun : Along step (fun (e : Event V) (_ : World M D) => ∀ token, e ≠ .invoke "finishSecret" token)
      es w := by
    refine along_of_forall step ?_ w
    rintro e he _ token rfl
    exact hes token he
  have hend : Stuck v x w.db (w.calls.count (.returned "setSecret")) (exec step es w) :=
    exec_invariant (I := Stuck v x w.db (w.calls.count (.returned "setSecret")))
      (fun _ _ he h => step_stuck hconn he h) ⟨hlabel, hvalue, rfl, hrefused, rfl⟩ hrun
  refine ⟨hend.db, ?_, hend.count⟩
  rw [getCurrent, hend.label]
  exact hend.value

/-- The rotation up to its `setSecret`, whose answer is lost. -/
def unanswered : List (Event Nat) :=
  [.invoke "createSecret" 2, .turn 0 "", .turn 0 "", .turn 0 "new", .turn 0 "", .invoke "setSecret" 2,
    .turn 1 "", .turn 1 "", .turn 1 "", .turn 1 ""]

/-- It is tried again, and then a new rotation is. -/
def retried : List (Event Nat) :=
  [.invoke "setSecret" 2, .turn 2 "", .turn 2 "", .turn 2 "", .invoke "createSecret" 3, .turn 3 "",
    .turn 3 "", .turn 3 "newer", .turn 3 "", .invoke "setSecret" 3, .turn 4 "", .turn 4 "", .turn 4 ""]

/-- A rotation whose answer was lost, tried again: it set the password once and never
    again. -/
theorem no_way_back_instance :
    (exec step retried (exec step unanswered start)).calls.count (.returned "setSecret") = 1 :=
  (no_way_back (exec step unanswered start) 1 before (by decide) (by decide) (by decide)
    (by
      rw [show (exec step unanswered start).calls = [.returned "createSecret", .returned "setSecret"]
        by decide]
      simp [Refused])
    retried (by simp [retried])).2.2.trans (by decide)

end

end DbRotation
