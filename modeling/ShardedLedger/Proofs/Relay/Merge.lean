import ShardedLedger.Ledger.Account
import ShardedLedger.Proofs.Json.RoundTrip
import ShardedLedger.Proofs.Ledger.Record
import ShardedLedger.Proofs.Relay.Shapes

namespace ShardedLedger

namespace Json

theorem readable_strings (list : List String) : Readable 1 (strings list) := by
  refine .arr fun item hitem => ?_
  obtain ⟨name, -, rfl⟩ := List.mem_map.mp hitem
  exact .str

theorem asRead_strings (list : List String) : (strings list).asRead = strings list := by
  simp only [strings, asRead, itemsAsRead_eq_map, List.map_map, Function.comp_def]

theorem readable_ofMap {ν : Type} {encode : ν → Json} {depth : Nat}
    (h : ∀ value, Readable depth (encode value)) (map : SortedMap String ν) :
    Readable (depth + 1) (ofMap encode map) := by
  refine .obj fun member hmember => ?_
  obtain ⟨entry, -, rfl⟩ := List.mem_map.mp hmember
  exact h entry.2

theorem asRead_ofMap {ν : Type} (encode : ν → Json) (map : SortedMap String ν) :
    (ofMap encode map).asRead = ofMap (fun value => (encode value).asRead) map := by
  have hentries := SortedMap.entries_ofList
    (map.mapValues fun _ value => (encode value).asRead).ascending_entries
  simp only [ofMap, asRead, membersAsRead_eq_map, object, SortedMap.mapValues, List.map_map,
    Function.comp_def] at hentries ⊢
  rw [hentries]

theorem isEmpty_print_arr (items : List Json) : (arr items).print.isEmpty = false := by
  simp [print, write]

theorem isEmpty_print_obj (members : List (String × Json)) :
    (obj members).print.isEmpty = false := by
  simp [print, write]

end Json

open Json

namespace Summary

theorem readable_toJson (summary : Summary) : Readable 2 summary.toJson := by
  have haccounts : FitsWord summary.accounts.toNat := by
    have := summary.accounts.toNat_lt
    unfold FitsWord
    omega
  refine .obj ?_
  simp only [List.forall_mem_cons, List.not_mem_nil, false_imp_iff, implies_true, and_true]
  exact ⟨.int haccounts, summary.budget.readable_toJson, summary.balance.readable_toJson,
    summary.spent.readable_toJson, summary.adjustments.readable_toJson,
    summary.available.readable_toJson⟩

end Summary

namespace ShardReply

-- The replies to the requests that concern all accounts.
def names (list : List String) : ShardReply := ⟨200, .text (Json.strings list).print⟩

def summaries (map : SortedMap String Summary) : ShardReply :=
  ⟨200, .text (Json.ofMap Summary.toJson map).print⟩

theorem json?_names (list : List String) : (names list).json? = some (Json.strings list) := by
  have hreadable := (readable_strings list).mono (show 1 ≤ depthLimit by decide)
  exact (parse?_print hreadable).trans (congrArg some (asRead_strings list))

theorem json?_summaries (map : SortedMap String Summary) :
    (summaries map).json? = some (Json.ofMap (fun summary => summary.toJson.asRead) map) := by
  have hreadable := (readable_ofMap Summary.readable_toJson map).mono
    (show 3 ≤ depthLimit by decide)
  exact (parse?_print hreadable).trans (congrArg some (asRead_ofMap Summary.toJson map))

section Order

variable {α : Type} {order : List α}

-- The merged list has the names of one reply behind those of the other.
theorem merge_names (hne : order ≠ []) (list : α → List String) :
    merge (order.map fun item => names (list item)) = some (names (order.flatMap list)) := by
  have hshape : ∀ reply ∈ order.map (fun item => names (list item)),
      reply.shape? = some .list := by
    intro reply hreply
    obtain ⟨item, -, rfl⟩ := List.mem_map.mp hreply
    simp only [shape?, json?_names, Json.strings]
  have hitems (item : α) : (names (list item)).items = (list item).map .str := by
    simp only [items, json?_names, Json.strings]
  have hnames : (order.map fun item => names (list item)).flatMap items =
      (order.flatMap list).map .str := by
    rw [List.flatMap_map, List.map_flatMap]
    exact List.flatMap_congr fun item _ => hitems item
  obtain ⟨last, _, hlast, rfl, hmerge⟩ := merge_of_forall (by simpa using hne) hshape
  obtain ⟨item, -, rfl⟩ := List.mem_map.mp (List.mem_of_getLast? hlast)
  rw [hmerge, hnames]
  rfl

-- However the summaries of a whole are spread over the replies, the merged object has them all.
theorem merge_summaries (hne : order ≠ []) {summary : α → SortedMap String Summary}
    {whole : SortedMap String Summary}
    (h : ∀ root value,
      whole.get? root = some value ↔ ∃ item ∈ order, (summary item).get? root = some value) :
    merge (order.map fun item => summaries (summary item)) =
      some ⟨200, .text (Json.ofMap (fun summary => summary.toJson.asRead) whole).print⟩ := by
  have hshape : ∀ reply ∈ order.map (fun item => summaries (summary item)),
      reply.shape? = some .record := by
    intro reply hreply
    obtain ⟨item, -, rfl⟩ := List.mem_map.mp hreply
    simp only [shape?, json?_summaries, Json.ofMap]
  have hmembers (item : α) : (summaries (summary item)).members =
      (summary item).mapValues fun _ summary => summary.toJson.asRead := by
    simp only [members, json?_summaries, Json.ofMap]
    exact SortedMap.ofList_entries ((summary item).mapValues fun _ summary => summary.toJson.asRead)
  have hunion : SortedMap.union ((order.map fun item => summaries (summary item)).map members) =
      whole.mapValues fun _ summary => summary.toJson.asRead := by
    refine SortedMap.union_eq fun root json => ?_
    simp only [List.map_map, List.mem_map, exists_exists_and_eq_and, Function.comp_apply, hmembers,
      SortedMap.get?_mapValues, Option.map_eq_some_iff, h]
    constructor
    · rintro ⟨value, ⟨item, hitem, hget⟩, rfl⟩
      exact ⟨item, hitem, value, hget, rfl⟩
    · rintro ⟨item, hitem, value, hget, rfl⟩
      exact ⟨value, ⟨item, hitem, hget⟩, rfl⟩
  obtain ⟨last, json, hlast, hgathers, hmerge⟩ := merge_of_forall (by simpa using hne) hshape
  obtain ⟨item, -, rfl⟩ := List.mem_map.mp (List.mem_of_getLast? hlast)
  rw [hmerge, gathers_record_iff.mp hgathers, hunion]
  rfl

end Order

end ShardReply

end ShardedLedger
