import StellarSave.MergeProofs

/-! # The allowlist — three doors, one of them watched

    A group comes into being by creation, by cloning or by merging.  While an
    allowlist is stored, its token should be on the list and have the decimals
    the token itself reports.  Creation asks the list and the token.  Cloning
    copies the source's token, or takes any other with the source's decimals,
    and asks nobody.  Merging stores no token at all. -/

namespace SaveAllowlist

open HostProg Footprint TokenLedger SaveData SaveMembership SaveLifecycle SaveCall SaveStatus
open SaveRoster SaveMerge Trace

/-- The token of the group is on the list, with the decimals it reports. -/
def Complies (decimals : Address → Option Nat) (list : List Address) (s : State) (g : Nat) :
    Prop :=
  ∃ config, tokenAt s g = some config ∧ config.tokenAddress ∈ list ∧
    decimals config.tokenAddress = some config.tokenDecimals

/-- The three calls that make a group. -/
def Creates : Call → Prop
  | .createGroup _ _ _ _ _ _ _ | .cloneGroup _ _ _ | .mergeGroups _ _ => True
  | _ => False

/-- The token a clone ends up with is on the list and has the source's
    decimals; nothing makes a merged group comply. -/
def Clears (decimals : Address → Option Nat) (list : List Address) (s : State) : Call → Prop
  | .cloneGroup _ g o => ∃ config, tokenAt s g = some config ∧
      o.tokenAddress.getD config.tokenAddress ∈ list ∧
      decimals (o.tokenAddress.getD config.tokenAddress) = some config.tokenDecimals
  | .mergeGroups _ _ => False
  | _ => True

/-- Every token reports the same decimals whenever it is asked. -/
def Reports (decimals : Address → Option Nat) (_ : Step) (s : State) : Prop :=
  ∀ tok, Book.decimalsOf s.ledger tok = decimals tok

section Step

variable {env : Env} {s t : State} {c : Call} {n : Nat} {decimals : Address → Option Nat}
  {list : List Address}

theorem created_token (grp : SaveData.Group) (config : TokenConfig) :
    tokenAt (created s grp config) (lastId s + 1) = some config := by
  simp [created]

theorem created_token_other (grp : SaveData.Group) (config : TokenConfig) (hn : n ≤ lastId s) :
    (created s grp config).persistent (.grpTok n) = s.persistent (.grpTok n) := by
  have hne : n ≠ lastId s + 1 := by omega
  simp [created, hne]

/-- A token is stored with its group and stays. -/
theorem token_step (h : c.body env s = .ok () t) (hn : n ≤ lastId s) :
    t.persistent (.grpTok n) = s.persistent (.grpTok n) := by
  have hagree := (Within.agree_ok (w := c.footprint) h).persistent
  cases c with
  | createGroup creator amount duration maxMembers tok grace order =>
      obtain ⟨made, hmade⟩ := quietly_ok.mp h
      obtain ⟨-, rounded, dec, l, rfl⟩ := createGroup_ok hmade
      exact created_token_other _ _ hn
  | cloneGroup caller g o =>
      obtain ⟨made, hmade⟩ := quietly_ok.mp h
      obtain ⟨-, src, config, -, -, rfl⟩ := cloneGroup_terms hmade
      exact created_token_other _ _ hn
  | _ => exact hagree (.grpTok n) (Place.other_kind rfl)

/-- Along a whole run. -/
theorem token_run (hreg : Registry s) (hn : n ≤ lastId s) (steps : List Step) :
    (run steps s).persistent (.grpTok n) = s.persistent (.grpTok n) := by
  -- the counter only grows, so the id stays among those handed out
  refine (exec_invariant_always (I := fun t => Registry t ∧ n ≤ lastId t ∧
    t.persistent (.grpTok n) = s.persistent (.grpTok n)) ?_ ⟨hreg, hn, rfl⟩ steps).2.2
  intro x u hu
  refine apply_invariant (C := fun _ _ => True) (I := fun t => Registry t ∧ n ≤ lastId t ∧
    t.persistent (.grpTok n) = s.persistent (.grpTok n)) ?_
    (fun _ h => ⟨⟨h.1.own, h.1.below⟩, h.2⟩) (fun _ _ h => ⟨⟨h.1.own, h.1.below⟩, h.2⟩)
    x u trivial hu
  rintro env c v w - ⟨hv, hlast, hsame⟩ h
  exact ⟨registry_step hv h, hlast.trans (grows_step hv h).last, (token_step h hlast).trans hsame⟩

/-- **WHAT EACH DOOR LETS THROUGH**, at the moment of creation. -/
theorem created_iff (hissued : TokensIssued s) (hc : Creates c)
    (hreports : ∀ tok, Book.decimalsOf s.ledger tok = decimals tok)
    (hlist : allowedAt s = some list) (h : c.body env s = .ok () t) :
    Complies decimals list t (lastId s + 1) ↔ Clears decimals list s c := by
  -- the token of the new group: checked, taken over, or missing
  cases c with
  | createGroup creator amount duration maxMembers tok grace order =>
      obtain ⟨made, hmade⟩ := quietly_ok.mp h
      obtain ⟨-, rounded, dec, l, -, ⟨hallowed, hdec⟩, rfl⟩ := createGroup_terms hmade
      refine iff_of_true ⟨⟨tok, dec⟩, created_token _ _, hallowed list hlist, ?_⟩ trivial
      rw [← hreports]
      exact hdec
  | cloneGroup caller g o =>
      obtain ⟨made, hmade⟩ := quietly_ok.mp h
      obtain ⟨-, src, config, ⟨-, hconfig⟩, -, rfl⟩ := cloneGroup_terms hmade
      constructor
      · rintro ⟨config', hconfig', hmem, hdec⟩
        obtain rfl := Option.some.inj ((created_token _ _).symm.trans hconfig')
        exact ⟨config, hconfig, hmem, hdec⟩
      · rintro ⟨config', hconfig', hmem, hdec⟩
        obtain rfl := Option.some.inj (hconfig.symm.trans hconfig')
        exact ⟨_, created_token _ _, hmem, hdec⟩
  | mergeGroups g₁ g₂ =>
      obtain ⟨made, hmade⟩ := quietly_ok.mp h
      obtain rfl := (mergeGroups_ok hmade).1
      refine iff_of_false ?_ id
      rintro ⟨config, hconfig, -⟩
      rw [merge_token hissued hmade] at hconfig
      cases hconfig
  | _ => exact hc.elim

end Step

/-- **WHO ESCAPES THE ALLOWLIST**: in every run in which a token always reports
    the same decimals, a group made while a list is stored complies, then and at
    the end of the run, exactly when it was created, or cloned into a token on the
    list that has the source's decimals. -/
theorem group_complies_iff (s : State) (hreg : Registry s) (hissued : TokensIssued s)
    (decimals : Address → Option Nat) (before after : List Step) (env : Env) (c : Call)
    (hreports : Along apply (Reports decimals) (before ++ .call env c :: after) s)
    (hc : Creates c) (list : List Address) (hlist : allowedAt (run before s) = some list)
    (hends : Succeeds c.body env (run before s)) :
    Complies decimals list (run (before ++ .call env c :: after) s) (lastId (run before s) + 1) ↔
      Clears decimals list (run before s) c := by
  -- the call went through, and the rest of the run keeps its token
  obtain ⟨⟨⟩, t, h⟩ := hends
  have hreg' : Registry (run before s) := exec_invariant_always registry_apply hreg before
  rw [along_append] at hreports
  have hend : run (before ++ .call env c :: after) s = run after t := by
    rw [run, exec_append, exec_cons]
    exact congrArg (run after) (commit_of_ok h)
  -- the new group has the next id
  have hlast : lastId (run before s) + 1 ≤ lastId t := by
    cases c with
    | createGroup creator amount duration maxMembers tok grace order =>
        obtain ⟨made, hmade⟩ := quietly_ok.mp h
        obtain ⟨-, rounded, dec, l, rfl⟩ := createGroup_ok hmade
        exact (lastId_created (s := run before s) _ _).ge
    | cloneGroup caller g o =>
        obtain ⟨made, hmade⟩ := quietly_ok.mp h
        obtain ⟨-, src, config, -, -, rfl⟩ := cloneGroup_terms hmade
        exact (lastId_created (s := run before s) _ _).ge
    | mergeGroups g₁ g₂ =>
        obtain ⟨made, hmade⟩ := quietly_ok.mp h
        exact (mergeGroups_lastId hmade).ge
    | _ => exact hc.elim
  have hsame : tokenAt (run after t) (lastId (run before s) + 1)
      = tokenAt t (lastId (run before s) + 1) :=
    readAt_congr (token_run (registry_step hreg' h) hlast after)
  rw [hend, Complies, hsame]
  exact created_iff (issued_run hreg hissued before) hc hreports.2.1 hlist h

/-! One token on the list, and a group that was there before the list. -/

def listConfig : ContractConfig := ⟨⟨1⟩, 1, 1000000, 2, 20, 1, 10000, none, 0⟩

/-- Two tokens, of seven and of two decimals. -/
def twoTokens : Ledger := fun tok =>
  if tok = ⟨9⟩ then some ⟨7, fun _ => 0, fun _ => 0, fun _ => Int.le_refl _, rfl⟩
  else if tok = ⟨8⟩ then some ⟨2, fun _ => 0, fun _ => 0, fun _ => Int.le_refl _, rfl⟩
  else none

/-- A configuration, a group paying in one token, and a list with the other. -/
def beforeClone : List Step :=
  [.call trioEnv (.updateConfig listConfig),
    .call trioEnv (.createGroup ⟨1⟩ 100000 1000 3 ⟨9⟩ 0 .sequential),
    .call trioEnv (.addAllowedToken ⟨1⟩ ⟨8⟩)]

/-- A clone of everything. -/
def plainClone : Call := .cloneGroup ⟨2⟩ 1 ⟨none, none, none, none, none, none⟩

/-- **AN UNLISTED CLONE**: the group is cloned after the list was made, token and
    all. -/
theorem clone_escapes :
    allowedAt (run beforeClone (deployed twoTokens)) = some [⟨8⟩] ∧
      Succeeds plainClone.body trioEnv (run beforeClone (deployed twoTokens)) ∧
      tokenAt (run (beforeClone ++ [.call trioEnv plainClone]) (deployed twoTokens)) 2
        = some ⟨⟨9⟩, 7⟩ ∧
      ¬ Complies (Book.decimalsOf twoTokens) [⟨8⟩]
        (run (beforeClone ++ [.call trioEnv plainClone]) (deployed twoTokens)) 2 := by
  have htoken : tokenAt (run (beforeClone ++ [.call trioEnv plainClone]) (deployed twoTokens)) 2
      = some ⟨⟨9⟩, 7⟩ := rfl
  refine ⟨rfl, ⟨(), _, rfl⟩, htoken, ?_⟩
  rintro ⟨config, hconfig, hmem, -⟩
  obtain rfl := Option.some.inj (htoken.symm.trans hconfig)
  exact absurd hmem (by decide)

/-- The theorem for a group created in the listed token. -/
theorem group_complies_iff_created :
    Complies (Book.decimalsOf twoTokens) [⟨8⟩]
      (run (beforeClone ++ [.call trioEnv (.createGroup ⟨1⟩ 100000 1000 3 ⟨8⟩ 0 .sequential)])
        (deployed twoTokens)) 2 := by
  refine (group_complies_iff (deployed twoTokens) (registry_deployed twoTokens)
    (fun g _ => rfl) (Book.decimalsOf twoTokens) beforeClone [] trioEnv
    (.createGroup ⟨1⟩ 100000 1000 3 ⟨8⟩ 0 .sequential) ?_ trivial [⟨8⟩] rfl ⟨(), _, rfl⟩).mpr trivial
  exact ⟨fun _ => rfl, fun _ => rfl, fun _ => rfl, fun _ => rfl, trivial⟩

end SaveAllowlist
