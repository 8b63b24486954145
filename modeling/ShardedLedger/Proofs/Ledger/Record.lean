import ShardedLedger.Ledger.Account
import ShardedLedger.Persistence.Plan
import ShardedLedger.Proofs.Json.Equality
import ShardedLedger.Proofs.Json.Form

namespace ShardedLedger

open Json

section Pools

namespace Pool

theorem fitsWord_amount (amount : Amount) : FitsWord amount.toInt := by
  have hlow := amount.le_toInt
  have hhigh := amount.toInt_lt
  unfold FitsWord
  omega

theorem takes_amount (amount : Amount) : amountForm.Takes (.int amount.toInt) amount := by
  have hlow := amount.le_toInt
  have hhigh := amount.toInt_lt
  have hinteger : (Form.integer "i64" Amount.least Amount.greatest).Takes (.int amount.toInt)
      amount.toInt := by
    refine Form.takes_integer (fitsWord_amount amount) ?_ ?_ <;>
      simp only [Amount.least, Amount.greatest] <;> omega
  have htakes := hinteger.map Int64.ofInt
  rwa [Int64.ofInt_toInt] at htakes

theorem toJson_eq_obj (pool : Pool) :
    pool.toJson = .obj (pool.amounts.entries.map fun entry => (entry.1, .int entry.2.toInt)) := rfl

theorem readable_toJson (pool : Pool) : Readable 1 pool.toJson := by
  rw [toJson_eq_obj]
  refine .obj fun member hmember => ?_
  obtain ⟨entry, -, rfl⟩ := List.mem_map.mp hmember
  exact .int (fitsWord_amount entry.2)

theorem asRead_toJson (pool : Pool) : pool.toJson.asRead = pool.toJson := by
  refine asRead_obj (SortedMap.ascending_entries _) fun member hmember => ?_
  obtain ⟨entry, -, rfl⟩ := List.mem_map.mp hmember
  rfl

theorem takes_toJson (pool : Pool) : form.Takes pool.toJson pool := by
  have hdict : (Form.dict amountForm).Takes pool.toJson (.ofList pool.amounts.entries) :=
    Form.takes_dict (fun amount => .int amount.toInt) fun entry _ => takes_amount entry.2
  have htakes := hdict.map Pool.mk
  rwa [SortedMap.ofList_entries] at htakes

end Pool

end Pools

namespace Account

-- What a record says of an account: all but the flag, which is written nowhere.
def asRecorded (account : Account) : Account := { account with outOfSync := false }

section Value

theorem fitsWord_version (account : Account) : FitsWord account.version.toNat := by
  have := account.version.toNat_lt
  unfold FitsWord
  omega

theorem readable_members (account : Account) :
    ∀ member ∈ account.members, Readable 1 member.2 := by
  simp only [members, List.forall_mem_cons, List.not_mem_nil, false_imp_iff, implies_true, and_true]
  exact ⟨.str, .str, .str, .int account.fitsWord_version, account.budget.readable_toJson,
    account.balance.readable_toJson, account.spent.readable_toJson,
    account.adjustments.readable_toJson⟩

theorem readable_value (account : Account) : Readable 2 account.value :=
  readable_object account.readable_members

theorem asRead_value (account : Account) : account.value.asRead = account.value := by
  refine asRead_object ?_
  simp only [members, List.forall_mem_cons, List.not_mem_nil, false_imp_iff, implies_true, and_true,
    Pool.asRead_toJson]
  exact ⟨rfl, rfl, rfl, rfl⟩

theorem parse?_storedText (account : Account) : parse? account.storedText = some account.value := by
  have hreadable := account.readable_value.mono (show 2 ≤ depthLimit by decide)
  rw [storedText, parse?_print hreadable, asRead_value]

end Value

section Reading

theorem takes_type (type : AccountType) :
    (Form.choice AccountType.names).Takes (.str type.name) type :=
  Form.takes_choice (by cases type <;> rfl)

theorem takes_status (status : AccountStatus) :
    (Form.choice AccountStatus.names).Takes (.str status.name) status :=
  Form.takes_choice (by cases status <;> rfl)

theorem takes_version (account : Account) :
    (Form.integer "u64" 0 (2 ^ 64 - 1)).Takes (.int account.version.toNat)
      account.version.toNat := by
  have := account.version.toNat_lt
  exact Form.takes_integer account.fitsWord_version (by omega) (by omega)

-- What has been read of the account once the members of these names have been taken.
def draftOf (account : Account) (names : List String) : Draft where
  name := if "name" ∈ names then some account.name.text else none
  type := if "type" ∈ names then some account.type else none
  status := if "status" ∈ names then some account.status else none
  version := if "version" ∈ names then some account.version.toNat else none
  budget := if "budget" ∈ names then some account.budget else none
  balance := if "balance" ∈ names then some account.balance else none
  spent := if "spent" ∈ names then some account.spent else none
  adjustments := if "adjustments" ∈ names then some account.adjustments else none

-- Each member is taken for its own field, and for no other.
theorem takes_member (account : Account) {names : List String} {name : String} {json : Json}
    (hmember : (name, json) ∈ account.members) (hnew : name ∉ names) :
    ∃ field, fields.find? (·.name = name) = some field ∧
      field.isSet (account.draftOf names) = false ∧
      field.Takes json (account.draftOf names) (account.draftOf (name :: names)) := by
  simp only [members, List.mem_cons, Prod.mk.injEq, List.not_mem_nil, or_false] at hmember
  rcases hmember with ⟨rfl, rfl⟩ | ⟨rfl, rfl⟩ | ⟨rfl, rfl⟩ | ⟨rfl, rfl⟩ | ⟨rfl, rfl⟩ |
    ⟨rfl, rfl⟩ | ⟨rfl, rfl⟩ | ⟨rfl, rfl⟩
  · exact ⟨_, rfl, by simp [Form.Field.of, draftOf, hnew],
      .of (Form.takes_text _) (by simp [draftOf])⟩
  · exact ⟨_, rfl, by simp [Form.Field.of, draftOf, hnew],
      .of (takes_type _) (by simp [draftOf])⟩
  · exact ⟨_, rfl, by simp [Form.Field.of, draftOf, hnew],
      .of (takes_status _) (by simp [draftOf])⟩
  · exact ⟨_, rfl, by simp [Form.Field.of, draftOf, hnew],
      .of account.takes_version (by simp [draftOf])⟩
  · exact ⟨_, rfl, by simp [Form.Field.of, draftOf, hnew],
      .of account.budget.takes_toJson (by simp [draftOf])⟩
  · exact ⟨_, rfl, by simp [Form.Field.of, draftOf, hnew],
      .of account.balance.takes_toJson (by simp [draftOf])⟩
  · exact ⟨_, rfl, by simp [Form.Field.of, draftOf, hnew],
      .of account.spent.takes_toJson (by simp [draftOf])⟩
  · exact ⟨_, rfl, by simp [Form.Field.of, draftOf, hnew],
      .of account.adjustments.takes_toJson (by simp [draftOf])⟩

-- By induction on the members that are left: those taken already are the ones read by now.
theorem takesMembers (account : Account) {list : List (String × Json)} {names : List String}
    (hmembers : ∀ member ∈ list, member ∈ account.members) (hnodup : (list.map (·.1)).Nodup)
    (hnew : ∀ member ∈ list, member.1 ∉ names) :
    ∃ all, Form.TakesMembers fields list (account.draftOf names) (account.draftOf all) ∧
      (∀ name ∈ list.map (·.1), name ∈ all) ∧ ∀ name ∈ names, name ∈ all := by
  induction list generalizing names with
  | nil => exact ⟨names, .nil, by simp, fun _ => id⟩
  | cons member list ih =>
      obtain ⟨name, json⟩ := member
      obtain ⟨hmember, hlist⟩ := List.forall_mem_cons.mp hmembers
      obtain ⟨hname, hrest⟩ := List.nodup_cons.mp hnodup
      obtain ⟨hfirst, hothers⟩ := List.forall_mem_cons.mp hnew
      obtain ⟨field, hknown, hunset, htakes⟩ := account.takes_member hmember hfirst
      obtain ⟨all, hall, hlisted, hkept⟩ := ih hlist hrest fun next hnext hmem => by
        rcases List.mem_cons.mp hmem with heq | hmem
        · exact hname (List.mem_map.mpr ⟨next, hnext, heq⟩)
        · exact hothers next hnext hmem
      refine ⟨all, .cons hknown hunset htakes hall, ?_, fun other hmem => ?_⟩
      · exact List.forall_mem_cons.mpr ⟨hkept name List.mem_cons_self, hlisted⟩
      · exact hkept other (List.mem_cons_of_mem _ hmem)

theorem nodup_members (account : Account) : (account.members.map (·.1)).Nodup := by
  simp only [members, List.map_cons, List.map_nil]
  decide

theorem ofDraft_draftOf (account : Account) {names : List String}
    (h : ∀ name ∈ account.members.map (·.1), name ∈ names) :
    ofDraft (account.draftOf names) = .ok account.asRecorded := by
  simp only [members, List.map_cons, List.map_nil, List.forall_mem_cons] at h
  obtain ⟨hname, htype, hstatus, hversion, hbudget, hbalance, hspent, hadjustments, -⟩ := h
  simp only [ofDraft, draftOf, hname, htype, hstatus, hversion, hbudget, hbalance, hspent,
    hadjustments, if_true, Form.require, bind, Except.bind, pure, Except.pure, Option.getD_some,
    Int.toNat_natCast, UInt64.ofNat_toNat, asRecorded]

-- The order in which the members stand makes no difference.
theorem takes_of_perm (account : Account) {list : List (String × Json)}
    (h : list.Perm account.members) : form.Takes (.obj list) account.asRecorded := by
  have hnames : (list.map (·.1)).Perm (account.members.map (·.1)) := h.map _
  have hnone : ∀ member ∈ list, member.1 ∉ ([] : List String) := fun _ _ => List.not_mem_nil
  obtain ⟨all, hall, hlisted, -⟩ := account.takesMembers (fun _ => h.mem_iff.mp)
    (hnames.nodup_iff.mpr account.nodup_members) hnone
  refine Form.takes_record hall (account.ofDraft_draftOf fun name hname => ?_)
  exact hlisted name (hnames.mem_iff.mpr hname)

theorem takes_record (account : Account) : form.Takes account.record account.asRecorded :=
  account.takes_of_perm (.refl _)

theorem takes_value (account : Account) : form.Takes account.value account.asRecorded :=
  account.takes_of_perm (SortedMap.perm_entries_ofList account.nodup_members)

theorem decode_value (account : Account) : form.decode account.value = .ok account.asRecorded :=
  account.takes_value.decodes

-- Whether an account is in sync is not written down, so one that is read is.
theorem outOfSync_of_decode {json : Json} {account : Account}
    (h : form.decode json = .ok account) : account.outOfSync = false := by
  obtain ⟨draft, hbuild⟩ := Form.exists_draft_of_decode_record h
  simp only [ofDraft, bind_eq_ok_iff, pure_eq_ok_iff] at hbuild
  obtain ⟨name, -, type, -, status, -, version, -, rfl⟩ := hbuild
  rfl

theorem readStored_storedText (account : Account) :
    Plan.readStored account.storedText = some (account.value, account.asRecorded) := by
  simp only [Plan.readStored, parse?_storedText, decode_value, Option.bind_eq_bind,
    Option.bind_some, Except.toOption, pure]

end Reading

end Account

end ShardedLedger
