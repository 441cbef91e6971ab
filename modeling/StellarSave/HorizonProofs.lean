import StellarSave.FrontierProofs
import StellarSave.TraceProofs

/-! # The Horizon indexer — what the cursor leaves behind

    `HorizonIndexer.runPollLoop` (`services/indexer.ts`) fetches the page after
    its cursor, stores its records one by one and moves the cursor to the last
    of them.  `storeTx` swallows what goes wrong, so the cursor also moves over
    records that were not stored.  A restart takes its cursor from a row of the
    highest ledger in the table, whichever the database returns. -/

namespace HorizonIndexer

open Trace Frontier

/-- A record of Horizon; its paging token as the number it spells. -/
structure Tx where
  hash : String
  ledger : Nat
  source_account : Option String
  fee_charged : Option String
  operation_count : Option Nat
  envelope_xdr : Option String
  result_xdr : Option String
  paging_token : Nat
  created_at : Option Nat
  deriving DecidableEq, Repr

structure IndexedTransaction where
  txHash : String
  ledgerSeq : Nat
  sourceAccount : String
  feePaid : Nat
  operationCount : Nat
  envelopeXdr : Option String
  resultXdr : Option String
  pagingToken : Nat
  createdAt : Nat
  deriving DecidableEq, Repr

/-- `parseInt(s, 10)` of a text that starts with a digit. -/
def parseInt (s : String) : Nat :=
  (s.toList.takeWhile Char.isDigit).foldl (fun n d => 10 * n + (d.toNat - 48)) 0

/-- What `storeTx` creates. -/
def Tx.row (tx : Tx) (now : Nat) : IndexedTransaction where
  txHash := tx.hash
  ledgerSeq := tx.ledger
  sourceAccount := tx.source_account.getD ""
  feePaid := match tx.fee_charged with
    | some fee => parseInt fee
    | none => 0
  operationCount := tx.operation_count.getD 0
  envelopeXdr := tx.envelope_xdr
  resultXdr := tx.result_xdr
  pagingToken := tx.paging_token
  createdAt := tx.created_at.getD now

inductive Cursor where
  | now
  | token (pagingToken : Nat)
  deriving DecidableEq, Repr

/-- Where the poll loop stands.  `tip` is how long the history was when the
    request went out; `tx` and `rest` are the records still to be stored. -/
inductive Loop where
  | down
  | polling (cursor : Cursor)
  | requested (cursor : Cursor) (tip : Nat)
  | storing (cursor : Cursor) (tx : Tx) (rest : List Tx)
  deriving DecidableEq, Repr

/-- The account's transactions in Horizon's order, the table, the clock and the
    poll loop. -/
structure State where
  history : List Tx
  table : List IndexedTransaction
  now : Nat
  loop : Loop
  deriving DecidableEq, Repr

def start : State := ⟨[], [], 0, .down⟩

/-- What can happen: a transaction is added, the process dies, it starts again
    and finds row `i`, a request goes out, it is answered or fails, the next
    record is stored or not, time passes. -/
inductive Event where
  | grow (tx : Tx)
  | crash
  | resume (i : Nat)
  | request
  | respond
  | fail
  | store (ok : Bool)
  | pass (ms : Nat)
  deriving DecidableEq, Repr

/-- Horizon adds a transaction with a new hash behind the others. -/
def Later (history : List Tx) (tx : Tx) : Prop :=
  ∀ t ∈ history, t.paging_token < tx.paging_token ∧ t.ledger ≤ tx.ledger ∧ t.hash ≠ tx.hash

instance (history : List Tx) (tx : Tx) : Decidable (Later history tx) :=
  inferInstanceAs (Decidable (∀ t ∈ history, _))

/-- `order=asc`: the transactions behind the cursor, `now` being the end of the
    history when the request went out. -/
def after (history : List Tx) (tip : Nat) : Cursor → List Tx
  | .now => history.drop tip
  | .token c => history.filter fun t => c < t.paging_token

/-- The rows `orderBy: ledgerSeq desc` may return first. -/
def Latest (table : List IndexedTransaction) (row : IndexedTransaction) : Prop :=
  ∀ r ∈ table, r.ledgerSeq ≤ row.ledgerSeq

instance (table : List IndexedTransaction) (row : IndexedTransaction) : Decidable (Latest table row) :=
  inferInstanceAs (Decidable (∀ r ∈ table, _))

/-- `upsert` on the unique `txHash`, with nothing to update. -/
def upsert (table : List IndexedTransaction) (row : IndexedTransaction) : List IndexedTransaction :=
  if row.txHash ∈ table.map IndexedTransaction.txHash then table else table ++ [row]

/-- The loop behind the record `tx`. -/
def Loop.next (cursor : Cursor) (tx : Tx) : List Tx → Loop
  | [] => .polling (.token tx.paging_token)
  | tx' :: rest => .storing cursor tx' rest

def step (pageSize : Nat) : Event → State → State
  | .grow tx, s => if Later s.history tx then { s with history := s.history ++ [tx] } else s
  | .crash, s => { s with loop := .down }
  | .resume i, s =>
      match s.loop with
      | .down =>
          if s.table = [] then { s with loop := .polling .now }
          else
            match s.table[i]? with
            | some row =>
                if Latest s.table row then { s with loop := .polling (.token row.pagingToken) } else s
            | none => s
      | _ => s
  | .request, s =>
      match s.loop with
      | .polling cursor => { s with loop := .requested cursor s.history.length }
      | _ => s
  | .respond, s =>
      match s.loop with
      | .requested cursor tip =>
          match (after s.history tip cursor).take pageSize with
          | [] => { s with loop := .polling cursor }
          | tx :: rest => { s with loop := .storing cursor tx rest }
      | _ => s
  | .fail, s =>
      match s.loop with
      | .requested cursor _ => { s with loop := .polling cursor }
      | _ => s
  | .store ok, s =>
      match s.loop with
      | .storing cursor tx rest =>
          { s with
            table := if ok = true then upsert s.table (tx.row s.now) else s.table
            loop := .next cursor tx rest }
      | _ => s
  | .pass ms, s => { s with now := s.now + ms }

/-! ## What the indexer promises -/

def Stored (s : State) (tx : Tx) : Prop := ∃ row ∈ s.table, row.txHash = tx.hash

/-- The cursor in memory. -/
def Loop.cursor? : Loop → Option Cursor
  | .down => none
  | .polling cursor => some cursor
  | .requested cursor _ => some cursor
  | .storing cursor _ _ => some cursor

/-- Every transaction behind a stored one and at or before the cursor is stored. -/
def Covered (s : State) : Prop :=
  ∀ c, s.loop.cursor? = some (.token c) → ∀ first ∈ s.history, Stored s first →
    ∀ tx ∈ s.history, first.paging_token < tx.paging_token → tx.paging_token ≤ c → Stored s tx

/-- No transaction is stored twice. -/
def Once (s : State) : Prop := (s.table.map IndexedTransaction.txHash).Nodup

/-- A store that fails is for a transaction that is in the table, or before all
    that are. -/
def Harmless (x : Event) (s : State) : Prop :=
  x = .store false → ∀ cursor tx rest, s.loop = .storing cursor tx rest →
    Stored s tx ∨ ∀ row ∈ s.table, tx.paging_token ≤ row.pagingToken

/-! ## Tokens -/

/-- The paging tokens Horizon has given out. -/
def tokens (history : List Tx) : Set Nat := { n | ∃ tx ∈ history, tx.paging_token = n }

/-- The paging tokens in the table. -/
def copied (table : List IndexedTransaction) : Set Nat := { n | ∃ row ∈ table, row.pagingToken = n }

@[simp] theorem copied_nil : copied [] = ∅ := by simp [copied]

theorem tokens_append (history : List Tx) (tx : Tx) :
    tokens (history ++ [tx]) = insert tx.paging_token (tokens history) := by
  ext n
  simp only [tokens, Set.mem_ofPred_eq, Set.mem_insert_iff, List.mem_append, List.mem_singleton]
  constructor
  · rintro ⟨t, ht | rfl, rfl⟩
    · exact Or.inr ⟨t, ht, rfl⟩
    · exact Or.inl rfl
  · rintro (rfl | ⟨t, ht, rfl⟩)
    · exact ⟨tx, Or.inr rfl, rfl⟩
    · exact ⟨t, Or.inl ht, rfl⟩

theorem copied_append (table : List IndexedTransaction) (row : IndexedTransaction) :
    copied (table ++ [row]) = insert row.pagingToken (copied table) := by
  ext n
  simp only [copied, Set.mem_ofPred_eq, Set.mem_insert_iff, List.mem_append, List.mem_singleton]
  constructor
  · rintro ⟨r, hr | rfl, rfl⟩
    · exact Or.inr ⟨r, hr, rfl⟩
    · exact Or.inl rfl
  · rintro (rfl | ⟨r, hr, rfl⟩)
    · exact ⟨row, Or.inr rfl, rfl⟩
    · exact ⟨r, Or.inl hr, rfl⟩

/-- Between two neighbours of an ordered list there is nothing. -/
theorem next_le {l r rest : List Nat} {x y t : Nat} (h : (l ++ (x :: y :: rest) ++ r).Pairwise (· < ·))
    (ht : t ∈ l ++ (x :: y :: rest) ++ r) (hlt : x < t) : y ≤ t := by
  simp only [List.pairwise_append, List.pairwise_cons, List.mem_append, List.mem_cons] at h ht
  obtain ⟨⟨-, ⟨-, hy, -⟩, hl⟩, -, hr⟩ := h
  obtain (ht | rfl | rfl | ht) | ht := ht
  · exact absurd hlt (Nat.not_lt.mpr (hl t ht x (Or.inl rfl)).le)
  · exact absurd hlt (Nat.lt_irrefl t)
  · exact Nat.le_refl t
  · exact (hy t ht).le
  · exact (hr y (Or.inr (Or.inr (Or.inl rfl))) t ht).le

/-- What lies behind a cursor is the end of an ordered history. -/
theorem filter_suffix {history : List Tx} (h : (history.map Tx.paging_token).Pairwise (· < ·)) (c : Nat) :
    (history.filter fun t => c < t.paging_token) <:+ history := by
  induction history with
  | nil => exact List.suffix_refl []
  | cons tx history ih =>
      obtain ⟨hfirst, hrest⟩ := List.pairwise_cons.mp h
      by_cases hc : c < tx.paging_token
      · have hall : (tx :: history).filter (fun t => c < t.paging_token) = tx :: history := by
          refine List.filter_eq_self.mpr fun t ht => ?_
          obtain rfl | ht := List.mem_cons.mp ht
          · exact decide_eq_true hc
          · exact decide_eq_true (Nat.lt_trans hc (hfirst _ (List.mem_map_of_mem ht)))
        rw [hall]
      · rw [List.filter_cons_of_neg (by simpa using hc)]
        exact (ih hrest).trans (List.suffix_cons tx history)

/-! ## Along the loop -/

/-- Where a loop with this cursor will read on. -/
def AtCursor (history : List Tx) (table : List IndexedTransaction) : Cursor → Prop
  | .now => table = []
  | .token c => c ∈ tokens history ∧ Front (tokens history) (copied table) (c + 1)

/-- The reader stands behind the cursor, or at the next record of a page, which
    is a stretch of the history. -/
def AtLoop (history : List Tx) (table : List IndexedTransaction) : Loop → Prop
  | .down => True
  | .polling cursor => AtCursor history table cursor
  | .requested cursor _ => AtCursor history table cursor
  | .storing cursor tx rest =>
      (tx :: rest) <:+: history ∧ Front (tokens history) (copied table) tx.paging_token ∧
        ∀ c, cursor = .token c → c < tx.paging_token

structure Indexed (s : State) : Prop where
  sorted : (s.history.map Tx.paging_token).Pairwise (· < ·)
  hashes : (s.history.map Tx.hash).Nodup
  rows : ∀ row ∈ s.table, ∃ tx ∈ s.history, row.txHash = tx.hash ∧ row.pagingToken = tx.paging_token
  gapless : Gapless (tokens s.history) (copied s.table)
  loop : AtLoop s.history s.table s.loop

variable {s : State}

/-- A transaction is stored when its token is. -/
theorem Indexed.stored_iff (h : Indexed s) {tx : Tx} (htx : tx ∈ s.history) :
    Stored s tx ↔ tx.paging_token ∈ copied s.table := by
  constructor
  · rintro ⟨row, hrow, hhash⟩
    obtain ⟨t, ht, hrowhash, hrowtoken⟩ := h.rows row hrow
    obtain rfl : t = tx := List.inj_on_of_nodup_map h.hashes ht htx (hrowhash.symm.trans hhash)
    exact ⟨row, hrow, hrowtoken⟩
  · rintro ⟨row, hrow, htoken⟩
    obtain ⟨t, ht, hrowhash, hrowtoken⟩ := h.rows row hrow
    have hnodup : (s.history.map Tx.paging_token).Nodup := h.sorted.imp Nat.ne_of_lt
    obtain rfl : t = tx := List.inj_on_of_nodup_map hnodup ht htx (hrowtoken.symm.trans htoken)
    exact ⟨row, hrow, hrowhash⟩

/-- **COVERED**: what the loop relies on is what is promised. -/
theorem Indexed.covered (h : Indexed s) : Covered s := by
  intro c hcursor first hfirst hstored tx htx hlt hle
  have hlo := (h.stored_iff hfirst).mp hstored
  refine (h.stored_iff htx).mpr ?_
  have hmem : tx.paging_token ∈ tokens s.history := ⟨tx, htx, rfl⟩
  have hloop := h.loop
  cases hl : s.loop with
  | down => simp [hl, Loop.cursor?] at hcursor
  | polling cursor =>
      obtain rfl : cursor = .token c := by simpa [hl, Loop.cursor?] using hcursor
      rw [hl] at hloop
      exact hloop.2.done _ hlo _ hmem hlt (Nat.lt_succ_of_le hle)
  | requested cursor tip =>
      obtain rfl : cursor = .token c := by simpa [hl, Loop.cursor?] using hcursor
      rw [hl] at hloop
      exact hloop.2.done _ hlo _ hmem hlt (Nat.lt_succ_of_le hle)
  | storing cursor head rest =>
      obtain rfl : cursor = .token c := by simpa [hl, Loop.cursor?] using hcursor
      rw [hl] at hloop
      obtain ⟨-, hfront, hcursor⟩ := hloop
      exact hfront.done _ hlo _ hmem hlt (Nat.lt_of_le_of_lt hle (hcursor c rfl))

/-! ## Step by step -/

theorem upsert_once {table : List IndexedTransaction} {row : IndexedTransaction}
    (h : (table.map IndexedTransaction.txHash).Nodup) :
    ((upsert table row).map IndexedTransaction.txHash).Nodup := by
  unfold upsert
  split
  case isTrue => exact h
  case isFalse hnew =>
    rw [List.map_append, List.nodup_append]
    refine ⟨h, by simp, fun a ha b hb => ?_⟩
    obtain rfl : b = row.txHash := by simpa using hb
    rintro rfl
    exact hnew ha

/-- **ONCE**: the unique hash, whatever fails. -/
theorem step_once (n : Nat) (x : Event) (s : State) (h : Once s) : Once (step n x s) := by
  cases x with
  | grow tx =>
      simp only [step]
      split <;> exact h
  | resume i =>
      simp only [step]
      split
      · split
        · exact h
        · split
          · split <;> exact h
          · exact h
      · exact h
  | request =>
      simp only [step]
      split <;> exact h
  | respond =>
      simp only [step]
      split
      · split <;> exact h
      · exact h
  | fail =>
      simp only [step]
      split <;> exact h
  | store ok =>
      simp only [step]
      split
      · cases ok with
        | true => exact upsert_once h
        | false => exact h
      · exact h
  | crash => exact h
  | pass ms => exact h

/-- **GROWTH**: nothing the loop relies on changes. -/
theorem Indexed.grow (h : Indexed s) {tx : Tx} (hlater : Later s.history tx) :
    Indexed { s with history := s.history ++ [tx] } := by
  have hold : ∀ n ∈ tokens s.history, n < tx.paging_token := by
    rintro n ⟨t, ht, rfl⟩
    exact (hlater t ht).1
  -- a new transaction lies ahead of every cursor
  have hcursor : ∀ cursor, AtCursor s.history s.table cursor →
      AtCursor (s.history ++ [tx]) s.table cursor := by
    intro cursor hat
    cases cursor with
    | now => exact hat
    | token c =>
        obtain ⟨hmem, hfront⟩ := hat
        rw [AtCursor, tokens_append]
        exact ⟨Set.mem_insert_of_mem _ hmem, hfront.grown (hold c hmem)⟩
  refine ⟨?_, ?_, ?_, ?_, ?_⟩
  -- the history stays sorted, its hashes apart
  · rw [List.map_append, List.pairwise_append]
    refine ⟨h.sorted, by simp, fun a ha b hb => ?_⟩
    obtain ⟨t, ht, rfl⟩ := List.mem_map.mp ha
    obtain rfl : b = tx.paging_token := by simpa using hb
    exact (hlater t ht).1
  · rw [List.map_append, List.nodup_append]
    refine ⟨h.hashes, by simp, fun a ha b hb => ?_⟩
    obtain ⟨t, ht, rfl⟩ := List.mem_map.mp ha
    obtain rfl : b = tx.hash := by simpa using hb
    exact (hlater t ht).2.2
  · intro row hrow
    obtain ⟨t, ht, hsame⟩ := h.rows row hrow
    exact ⟨t, List.mem_append_left [tx] ht, hsame⟩
  · rw [tokens_append]
    refine h.gapless.grown ?_
    rintro n ⟨row, hrow, rfl⟩
    obtain ⟨t, ht, -, htoken⟩ := h.rows row hrow
    exact hold _ ⟨t, ht, htoken.symm⟩
  · have hloop := h.loop
    cases hl : s.loop with
    | down => exact trivial
    | polling cursor =>
        rw [hl] at hloop
        exact hcursor cursor hloop
    | requested cursor tip =>
        rw [hl] at hloop
        exact hcursor cursor hloop
    | storing cursor head rest =>
        rw [hl] at hloop
        obtain ⟨hpage, hfront, hbelow⟩ := hloop
        have hhead : head ∈ s.history := hpage.subset List.mem_cons_self
        refine ⟨hpage.trans (List.prefix_append s.history [tx]).isInfix, ?_, hbelow⟩
        rw [tokens_append]
        exact hfront.grown (hold _ ⟨head, hhead, rfl⟩).le

/-- The loop moves, the history and the table stay. -/
theorem Indexed.goto (h : Indexed s) {loop : Loop} (hloop : AtLoop s.history s.table loop) :
    Indexed { s with loop := loop } :=
  ⟨h.sorted, h.hashes, h.rows, h.gapless, hloop⟩

/-- **RESUMED**: any row of the table is a place to go on from. -/
theorem Indexed.resume (h : Indexed s) {row : IndexedTransaction} (hrow : row ∈ s.table) :
    AtCursor s.history s.table (.token row.pagingToken) := by
  obtain ⟨tx, htx, -, htoken⟩ := h.rows row hrow
  refine ⟨⟨tx, htx, htoken.symm⟩, ?_⟩
  exact h.gapless.resumed ⟨row, hrow, rfl⟩ (Nat.lt_succ_self _) fun t _ hlt => hlt

/-- **THE PAGE**: its first record is the next one behind the cursor. -/
theorem Indexed.respond (h : Indexed s) {cursor : Cursor} {tip n : Nat} {tx : Tx} {rest : List Tx}
    (hat : AtCursor s.history s.table cursor)
    (hpage : (after s.history tip cursor).take n = tx :: rest) :
    AtLoop s.history s.table (.storing cursor tx rest) := by
  have hprefix : (tx :: rest) <+: after s.history tip cursor := hpage ▸ List.take_prefix n _
  -- what the page begins with is the next one after the cursor
  cases cursor with
  | now =>
      refine ⟨List.IsInfix.trans hprefix.isInfix (List.drop_suffix tip s.history).isInfix, ?_, fun c hc => by cases hc⟩
      have hempty : s.table = [] := hat
      rw [hempty, copied_nil]
      exact front_empty _ _
  | token c =>
      obtain ⟨-, hfront⟩ := hat
      have hsuffix : after s.history tip (.token c) <:+ s.history := filter_suffix h.sorted c
      have hsorted : ((after s.history tip (.token c)).map Tx.paging_token).Pairwise (· < ·) :=
        h.sorted.sublist (hsuffix.sublist.map _)
      obtain ⟨others, hothers⟩ := hprefix
      have hbehind : c < tx.paging_token := by
        have hmem : tx ∈ after s.history tip (.token c) := hothers ▸ List.mem_cons_self
        exact of_decide_eq_true (List.mem_filter.mp hmem).2
      have hinfix : (tx :: rest) <:+: after s.history tip (.token c) :=
        List.IsPrefix.isInfix ⟨others, hothers⟩
      refine ⟨List.IsInfix.trans hinfix hsuffix.isInfix, ?_, fun c' hc' => ?_⟩
      · refine hfront.advance hbehind ?_
        rintro n ⟨t, ht, rfl⟩ hle
        have hmem : t ∈ after s.history tip (.token c) := List.mem_filter.mpr ⟨ht, decide_eq_true hle⟩
        rw [← hothers] at hmem hsorted
        obtain rfl | hmem := List.mem_cons.mp hmem
        · exact Nat.le_refl _
        · exact ((List.pairwise_cons.mp hsorted).1 _ (List.mem_map_of_mem hmem)).le
      · obtain rfl : c = c' := by simpa using hc'
        exact hbehind

/-- The table behind a store. -/
theorem Indexed.store_table (h : Indexed s) {tx : Tx} (htx : tx ∈ s.history) (ok : Bool)
    (hok : ok = false → Stored s tx ∨ ∀ row ∈ s.table, tx.paging_token ≤ row.pagingToken) :
    let table := if ok = true then upsert s.table (tx.row s.now) else s.table
    table = s.table ++ [tx.row s.now] ∨
      table = s.table ∧ (tx.paging_token ∈ copied s.table ∨ ∀ n ∈ copied s.table, tx.paging_token ≤ n) := by
  cases ok with
  | true =>
      by_cases hthere : tx.hash ∈ s.table.map IndexedTransaction.txHash
      · obtain ⟨row, hrow, hhash⟩ := List.mem_map.mp hthere
        refine Or.inr ⟨if_pos hthere, Or.inl ?_⟩
        exact (h.stored_iff htx).mp ⟨row, hrow, hhash⟩
      · exact Or.inl (if_neg hthere)
  | false =>
      refine Or.inr ⟨rfl, ?_⟩
      obtain hstored | hfirst := hok rfl
      · exact Or.inl ((h.stored_iff htx).mp hstored)
      · refine Or.inr ?_
        rintro n ⟨row, hrow, rfl⟩
        exact hfirst row hrow

/-- The loop behind a store: at the next record of the page, or at the cursor. -/
theorem Indexed.next (h : Indexed s) {cursor : Cursor} {tx : Tx} {rest : List Tx}
    {table : List IndexedTransaction} (hloop : AtLoop s.history s.table (.storing cursor tx rest))
    (hfront : ∀ q, tx.paging_token < q → (∀ t ∈ tokens s.history, tx.paging_token < t → q ≤ t) →
      Front (tokens s.history) (copied table) q) :
    AtLoop s.history table (.next cursor tx rest) := by
  obtain ⟨hpage, -, hbelow⟩ := hloop
  -- the page goes on, or the cursor is where it ends
  cases rest with
  | nil =>
      have htx : tx ∈ s.history := hpage.subset List.mem_cons_self
      exact ⟨⟨tx, htx, rfl⟩, hfront _ (Nat.lt_succ_self _) fun t _ hlt => hlt⟩
  | cons tx' rest =>
      obtain ⟨before, behind, heq⟩ := id hpage
      have hsorted := h.sorted
      rw [← heq] at hsorted
      simp only [List.map_append, List.map_cons] at hsorted
      have hnext : ∀ t ∈ tokens s.history, tx.paging_token < t → tx'.paging_token ≤ t := by
        rintro t ⟨other, hother, rfl⟩ hlt
        have hmem := List.mem_map_of_mem (f := Tx.paging_token) (heq.symm ▸ hother)
        simp only [List.map_append, List.map_cons] at hmem
        exact next_le hsorted hmem hlt
      have hlt : tx.paging_token < tx'.paging_token := by
        have hpair := (h.sorted.sublist (hpage.sublist.map _))
        exact (List.pairwise_cons.mp hpair).1 _ (List.mem_map_of_mem List.mem_cons_self)
      refine ⟨(List.suffix_cons tx _).isInfix.trans hpage, hfront _ hlt hnext, fun c hc => ?_⟩
      exact Nat.lt_trans (hbelow c hc) hlt

/-- **STORED**: a record is copied, or passed over without harm. -/
theorem Indexed.store (h : Indexed s) {cursor : Cursor} {tx : Tx} {rest : List Tx}
    (hloop : AtLoop s.history s.table (.storing cursor tx rest)) (ok : Bool)
    (hok : ok = false → Stored s tx ∨ ∀ row ∈ s.table, tx.paging_token ≤ row.pagingToken) :
    Indexed { s with
      table := if ok = true then upsert s.table (tx.row s.now) else s.table
      loop := .next cursor tx rest } := by
  have htx : tx ∈ s.history := hloop.1.subset List.mem_cons_self
  have hfront : Front (tokens s.history) (copied s.table) tx.paging_token := hloop.2.1
  obtain hnew | ⟨hsame, hskip⟩ := h.store_table htx ok hok
  -- the new row is the next in order, so nothing is missing before it
  · have hcopied : copied (s.table ++ [tx.row s.now]) = insert tx.paging_token (copied s.table) :=
      copied_append s.table (tx.row s.now)
    refine ⟨h.sorted, h.hashes, ?_, ?_, ?_⟩
    · intro row hrow
      dsimp only at hrow
      rw [hnew] at hrow
      obtain hrow | hrow := List.mem_append.mp hrow
      · exact h.rows row hrow
      · obtain rfl := List.mem_singleton.mp hrow
        exact ⟨tx, htx, rfl, rfl⟩
    · dsimp only
      rw [hnew, hcopied]
      exact h.gapless.copied hfront
    · dsimp only
      rw [hnew]
      refine h.next hloop fun q hq hgap => ?_
      rw [hcopied]
      exact hfront.copied hq hgap
  -- the row was there, or is older than all rows and was skipped
  · rw [hsame]
    exact ⟨h.sorted, h.hashes, h.rows, h.gapless,
      h.next hloop fun q hq hgap => hfront.passed hq hgap hskip⟩

/-- **ONE STEP**: the loop keeps what it relies on, unless a store fails in
    between. -/
theorem step_indexed (n : Nat) (x : Event) (s : State) (hx : Harmless x s) (h : Indexed s) :
    Indexed (step n x s) := by
  have hloop := h.loop
  cases x with
  | grow tx =>
      simp only [step]
      split
      case isTrue hlater => exact h.grow hlater
      case isFalse => exact h
  | crash => exact h.goto trivial
  -- after a crash the cursor is read off the table
  | resume i =>
      simp only [step]
      split
      · split
        case isTrue hempty => exact h.goto hempty
        case isFalse =>
          split
          case h_1 row hrow =>
            split
            · exact h.goto (h.resume (List.mem_of_getElem? hrow))
            · exact h
          case h_2 => exact h
      · exact h
  -- a request is of the transactions after the cursor, up to the tip
  | request =>
      simp only [step]
      split
      case h_1 cursor hl => exact h.goto (by rwa [hl] at hloop)
      case h_2 => exact h
  | respond =>
      simp only [step]
      split
      case h_1 cursor tip hl =>
        rw [hl] at hloop
        split
        · exact h.goto hloop
        case h_2 tx rest hpage => exact h.goto (h.respond hloop hpage)
      case h_2 => exact h
  | fail =>
      simp only [step]
      split
      case h_1 cursor tip hl => exact h.goto (by rwa [hl] at hloop)
      case h_2 => exact h
  | store ok =>
      simp only [step]
      split
      case h_1 cursor tx rest hl =>
        rw [hl] at hloop
        exact h.store hloop ok fun hfail => hx (hfail ▸ rfl) cursor tx rest hl
      case h_2 => exact h
  | pass ms => exact ⟨h.sorted, h.hashes, h.rows, h.gapless, h.loop⟩

theorem start_indexed : Indexed start where
  sorted := List.Pairwise.nil
  hashes := List.nodup_nil
  rows := fun row hrow => absurd hrow List.not_mem_nil
  gapless := by
    rw [show start.table = [] from rfl, copied_nil]
    exact gapless_empty _
  loop := trivial

/-! ## Every run -/

/-- **NOTHING LOST, NOTHING TWICE**: no run stores a transaction twice, and a run
    in which a failed store is always of a transaction that is in the table, or
    before all that are, leaves nothing behind its cursor. -/
theorem indexer_covered (n : Nat) (xs : List Event) :
    Along (step n) (fun x s => Once (step n x s)) xs start ∧
      (Along (step n) Harmless xs start → Along (step n) (fun x s => Covered (step n x s)) xs start) := by
  constructor
  · have hall : Along (step n) (fun _ _ => True) xs start := along_true (step n) xs start
    exact along_of_invariant (fun x s _ h => ⟨step_once n x s h, step_once n x s h⟩) List.nodup_nil hall
  · intro hrun
    refine along_of_invariant (I := Indexed) (fun x s hx h => ?_) start_indexed hrun
    have hnext := step_indexed n x s hx h
    exact ⟨hnext.covered, hnext⟩

/-- A transaction of one contract. -/
def sample (hash : String) (n : Nat) : Tx := ⟨hash, n, none, none, none, none, none, n, none⟩

theorem indexer_covered_restart :
    Along (step 200) (fun x s => Covered (step 200 x s))
      [.resume 0, .request, .grow (sample "a" 1), .respond, .store true, .crash, .resume 0] start :=
  have harmless (x : Event) (s : State) (hx : x ≠ .store false) : Harmless x s := fun h => absurd h hx
  (indexer_covered 200 _).2 ⟨harmless _ _ (by decide), harmless _ _ (by decide), harmless _ _ (by decide),
    harmless _ _ (by decide), harmless _ _ (by decide), harmless _ _ (by decide),
    harmless _ _ (by decide), trivial⟩

/-- The store between two others fails; the cursor moves behind all three. -/
theorem transaction_lost : ¬ ∀ (n : Nat) (xs : List Event),
    Along (step n) (fun x s => Covered (step n x s)) xs start := by
  intro h
  have hrun := h 200 (([.resume 0, .request, .grow (sample "a" 1), .grow (sample "b" 2),
    .grow (sample "c" 3), .respond, .store true, .store false] : List Event) ++ [Event.store true])
  have hlast := ((along_append (step 200) _ _ _ start).mp hrun).2.1
  have hstored := hlast 3 (by decide) (sample "a" 1) (by decide) ⟨(sample "a" 1).row 0, by decide, rfl⟩
    (sample "b" 2) (by decide) (by decide) (by decide)
  obtain ⟨row, hrow, hhash⟩ := hstored
  revert row
  decide

end HorizonIndexer
