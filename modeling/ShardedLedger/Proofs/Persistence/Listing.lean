import ShardedLedger.Persistence.Result
import ShardedLedger.Proofs.Json.Form

namespace ShardedLedger.SaveResult

open Json

theorem keys_of_keyList {result : SaveResult} {listed : List String}
    (hstatus : result.status ≠ .persistenceError) (hinfo : result.info = keyList listed) :
    result.keys = listed := by
  have hparse : (Form.list Form.text).parse result.info = .ok listed :=
    hinfo ▸ (Form.takes_strings listed).parse_print
  unfold keys
  split
  next herror => exact absurd herror hstatus
  next =>
    rw [hparse]
    rfl

theorem keys_of_persistenceError {result : SaveResult}
    (hstatus : result.status = .persistenceError) : result.keys = [] := by
  rw [keys, hstatus]

-- The text in which keys are listed is a JSON list of them for every other reader too.
theorem parse?_keyList (listed : List String) :
    parse? (keyList listed) = some (strings listed) := by
  have hreadable : Readable depthLimit (strings listed) := by
    refine .arr fun item hitem => ?_
    obtain ⟨text, -, rfl⟩ := List.mem_map.mp hitem
    exact .str
  have hlisted : (strings listed).asRead = strings listed := by
    rw [strings, asRead, itemsAsRead_eq_map, List.map_map]
    rfl
  rw [keyList, parse?_print hreadable, hlisted]

-- One text holds three kinds of content, and only the status tells them apart. Listed keys come
-- out in their order as they went in; an error text lists none, also if it looks like a list.
theorem keys_listed :
    (∀ listed, (dataInconsistency listed).keys = listed ∧ (archived listed).keys = listed ∧
        parse? (dataInconsistency listed).info = some (strings listed) ∧
        parse? (archived listed).info = some (strings listed)) ∧
      success.keys = [] ∧ ∀ message, (persistenceError message).keys = [] := by
  refine ⟨fun listed => ⟨?_, ?_, parse?_keyList listed, parse?_keyList listed⟩, rfl, fun _ => ?_⟩
  · exact keys_of_keyList nofun rfl
  · exact keys_of_keyList nofun rfl
  · exact keys_of_persistenceError rfl

example : (persistenceError "[\"a:b\"]").keys = [] ∧ (archived ["a:b"]).info = "[\"a:b\"]" := by
  decide +kernel

end ShardedLedger.SaveResult
