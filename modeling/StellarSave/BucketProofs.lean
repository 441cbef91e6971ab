import Mathlib.Algebra.BigOperators.Group.List.Basic
import StellarSave.TraceProofs
import StellarSave.UnitsProofs

/-! # Buckets — a hash taken modulo two

    `ABTestingFramework` (`ab_testing.ts`).  The hash goes through 32-bit integers, and
    every step of it keeps the parity, so that a bucket says no more of a user than
    whether their id has an odd number of odd code units. -/

namespace Buckets

open Trace Units

inductive TestBucket where
  | A
  | B
  deriving DecidableEq, Repr

/-- What a 32-bit integer stands for, of a whole number. -/
def toInt32 (n : Int) : Int := (n + 2 ^ 31) % 2 ^ 32 - 2 ^ 31

/-- One round of `simpleHash`: the shift is one of 32-bit integers, the rest is not. -/
def hashStep (hash : Int) (char : UInt16) : Int :=
  toInt32 (toInt32 (hash * 2 ^ 5) - hash + char.toNat)

def simpleHash (str : JsString) : Nat := (str.foldl hashStep 0).natAbs

/-- The bucket of the hash. -/
def hashed (userId : JsString) : TestBucket := if simpleHash userId % 2 = 0 then .A else .B

/-- `bucketStore`. -/
abbrev Store := JsString → Option TestBucket

def getBucket (userId : JsString) (store : Store) : TestBucket × Store :=
  match store userId with
  | some bucket => (bucket, store)
  | none => (hashed userId, fun id => if id = userId then some (hashed userId) else store id)

/-- The sum of the code units. -/
def total (str : JsString) : Nat := (str.map UInt16.toNat).sum

section Parity

variable {str : JsString}

theorem toInt32_mod_two (n : Int) : toInt32 n % 2 = n % 2 := by
  rw [toInt32]
  omega

theorem hashStep_mod_two (hash : Int) (char : UInt16) :
    hashStep hash char % 2 = (hash + char.toNat) % 2 := by
  have hshift := toInt32_mod_two (hash * 2 ^ 5)
  rw [hashStep, toInt32_mod_two]
  omega

theorem foldl_mod_two (str : JsString) (hash : Int) :
    str.foldl hashStep hash % 2 = (hash + total str) % 2 := by
  induction str generalizing hash with
  | nil => simp [total]
  | cons char str ih =>
      have hone := hashStep_mod_two hash char
      rw [List.foldl_cons, ih, total, total, List.map_cons, List.sum_cons]
      push_cast
      omega

/-- **PARITY**: the hash is odd exactly when the sum of the code units is. -/
theorem simpleHash_mod_two (str : JsString) : simpleHash str % 2 = total str % 2 := by
  have hfold := foldl_mod_two str 0
  rw [simpleHash]
  omega

theorem hashed_eq (userId : JsString) : hashed userId = if total userId % 2 = 0 then .A else .B := by
  rw [hashed, simpleHash_mod_two]

end Parity

section Runs

variable {store : Store} {id userId : JsString}

theorem getBucket_fst : (getBucket userId store).1 = (store userId).getD (hashed userId) := by
  rw [getBucket]
  cases store userId with
  | none => rfl
  | some bucket => rfl

/-- A lookup changes what nobody sees. -/
theorem getBucket_snd : ((getBucket userId store).2 id).getD (hashed id) = (store id).getD (hashed id) := by
  rw [getBucket]
  cases hstore : store userId with
  | some bucket => rfl
  | none =>
      show (if id = userId then some (hashed userId) else store id).getD (hashed id) = _
      by_cases hid : id = userId
      · rw [if_pos hid, hid, hstore]
        rfl
      · rw [if_neg hid]

end Runs

/-- **A BUCKET IS A PARITY**: after any lookups on a fresh store, the bucket of a user depends
    on the parity of the sum of the code units of the id and on nothing else; ids with the same
    units in another order share it. -/
theorem bucket_parity (lookups : List JsString) (userId : JsString) :
    (getBucket userId (exec (fun id store => (getBucket id store).2) lookups fun _ => none)).1 =
        (if total userId % 2 = 0 then .A else .B) ∧
      ∀ other : JsString, other.Perm userId →
        (getBucket other (exec (fun id store => (getBucket id store).2) lookups fun _ => none)).1 =
          (getBucket userId (exec (fun id store => (getBucket id store).2) lookups fun _ => none)).1 := by
  have hseen : ∀ id, ((exec (fun id (store : Store) => (getBucket id store).2) lookups fun _ => none) id).getD
      (hashed id) = hashed id := by
    intro id
    exact exec_invariant_always (I := fun store : Store => (store id).getD (hashed id) = hashed id)
      (fun userId store h => getBucket_snd.trans h) rfl lookups
  have hbucket : ∀ id, (getBucket id
      (exec (fun id (store : Store) => (getBucket id store).2) lookups fun _ => none)).1 = hashed id :=
    fun id => getBucket_fst.trans (hseen id)
  refine ⟨(hbucket userId).trans (hashed_eq userId), ?_⟩
  intro other hperm
  have htotal : total other = total userId := (hperm.map _).sum_eq
  rw [hbucket, hbucket, hashed_eq, hashed_eq, htotal]

end Buckets
