import Mathlib.Data.UInt
import ShardedLedger.Proofs.Ledger.Evolution
import ShardedLedger.Proofs.Ledger.Record

namespace ShardedLedger

open Json

namespace Account

-- A record that was served holds the same value as the one that is stored.
theorem parse?_text (account : Account) : parse? account.text = some account.value := by
  have hreadable : Readable 2 account.record := .obj account.readable_members
  have hmembers : account.members.map (fun member => (member.1, member.2.asRead)) =
      account.members := by
    simp only [members, List.map_cons, List.map_nil, Pool.asRead_toJson, asRead]
  rw [text, parse?_print (hreadable.mono (by decide)), record, asRead, membersAsRead_eq_map,
    hmembers, value]

theorem readStored_text (account : Account) :
    Plan.readStored account.text = some (account.value, account.asRecorded) := by
  simp only [Plan.readStored, parse?_text, decode_value, Option.bind_eq_bind, Option.bind_some,
    Except.toOption, pure]

end Account

namespace Ledger

-- What the printed ledger says of the accounts.
def asRecorded (ledger : Ledger) : Ledger :=
  ⟨ledger.accounts.mapValues fun _ account => account.asRecorded⟩

section Printed

variable {ledger : Ledger}

theorem readable_toJson (ledger : Ledger) : Readable 3 ledger.toJson := by
  refine .obj fun member hmember => ?_
  obtain ⟨entry, -, rfl⟩ := List.mem_map.mp hmember
  exact entry.2.readable_value

-- Keys are in the order of their texts, so the members already stand as they are read.
theorem asRead_toJson (ledger : Ledger) : ledger.toJson.asRead = ledger.toJson := by
  refine asRead_obj (List.pairwise_map.mpr ledger.accounts.sorted) fun member hmember => ?_
  obtain ⟨entry, -, rfl⟩ := List.mem_map.mp hmember
  exact entry.2.asRead_value

theorem parse?_print_toJson (ledger : Ledger) :
    parse? ledger.toJson.print = some ledger.toJson := by
  rw [parse?_print (ledger.readable_toJson.mono (by decide)), asRead_toJson]

theorem readEntry_value {key : Key} {account : Account} (hvalid : key.IsValid)
    (hname : account.name = key) :
    ledger.readEntry (key.text, account.value) = .ok (ledger.set key account.asRecorded) := by
  have hparse : Key.parse key.text = .ok key := (Key.parse_eq_ok_iff key.text key).mpr ⟨rfl, hvalid⟩
  have hrecorded : account.asRecorded.name = key := hname
  simp only [readEntry, hparse, account.decode_value, Except.mapError, bind, Except.bind, hrecorded,
    if_true]

theorem readEntries_values {entries : List (Key × Account)}
    (h : ∀ entry ∈ entries, entry.1.IsValid ∧ entry.2.name = entry.1) (ledger : Ledger) :
    (entries.map fun entry => (entry.1.text, entry.2.value)).foldlM readEntry ledger =
      .ok ⟨ledger.accounts.insertAll
        (entries.map fun entry => (entry.1, entry.2.asRecorded))⟩ := by
  induction entries generalizing ledger with
  | nil => rfl
  | cons entry entries ih =>
      obtain ⟨⟨hvalid, hname⟩, hrest⟩ := List.forall_mem_cons.mp h
      rw [List.map_cons, List.foldlM_cons, readEntry_value hvalid hname]
      exact ih hrest (ledger.set entry.1 entry.2.asRecorded)

theorem ofJson_toJson (h : ledger.WellNamed) : ofJson ledger.toJson = .ok ledger.asRecorded := by
  have hentries : ∀ entry ∈ ledger.accounts.entries, entry.1.IsValid ∧ entry.2.name = entry.1 :=
    fun entry hentry => h entry.1 entry.2 ((SortedMap.get?_eq_some_iff _ _ _).mpr hentry)
  have hread := readEntries_values hentries .empty
  have hall : empty.accounts.insertAll ledger.asRecorded.accounts.entries =
      ledger.asRecorded.accounts := SortedMap.ofList_entries ledger.asRecorded.accounts
  exact hread.trans (congrArg (fun accounts => Except.ok (Ledger.mk accounts)) hall)

end Printed

-- An account comes back from its record, whether as served or as stored and whether read as a
-- record or as a value first, and a ledger from its printed value. Only the flag is lost.
theorem records_come_back :
    (∀ account : Account,
      (Account.form.parse account.text = .ok account.asRecorded ∧
        Account.form.parse account.storedText = .ok account.asRecorded) ∧
      Plan.readStored account.text = some (account.value, account.asRecorded) ∧
      Plan.readStored account.storedText = some (account.value, account.asRecorded)) ∧
    ∀ ledger : Ledger, ledger.WellNamed →
      ∃ value, parse? ledger.toJson.print = some value ∧ ofJson value = .ok ledger.asRecorded := by
  refine ⟨fun account => ⟨⟨?_, ?_⟩, ?_, ?_⟩, fun ledger hnamed => ?_⟩
  · exact account.takes_record.parse_print
  · exact account.takes_value.parse_print
  · exact account.readStored_text
  · exact account.readStored_storedText
  · exact ⟨ledger.toJson, ledger.parse?_print_toJson, ofJson_toJson hnamed⟩

-- One account whose texts must be escaped and whose numbers are as far out as they can be.
def extreme : Account :=
  { Account.new ⟨"\"ö\\:\n"⟩ .spend with
    status := .closed
    version := 2 ^ 64 - 1
    budget := ⟨.ofList [("", Int64.minValue), ("\x01\t", Int64.maxValue)]⟩
    outOfSync := true }

theorem records_come_back_extreme :
    ∃ value, parse? (empty.set extreme.name extreme).toJson.print = some value ∧
      ofJson value = .ok (empty.set extreme.name { extreme with outOfSync := false }) := by
  have hvalid : extreme.name.IsValid := by decide +kernel
  have hnamed := (Extends.set_new (get?_empty extreme.name) hvalid rfl).named wellNamed_empty
  exact records_come_back.2 _ hnamed

end Ledger

end ShardedLedger
