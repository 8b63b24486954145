import ShardedLedger.Proofs.SortedMap
import ShardedLedger.Relay.Merge

namespace ShardedLedger

namespace ShardReply

-- What a reply must be read as to be merged.
inductive Shape where
  | list
  | record
  deriving DecidableEq

def shape? (reply : ShardReply) : Option Shape :=
  match reply.json? with
  | some (.arr _) => some .list
  | some (.obj _) => some .record
  | _ => none

def items (reply : ShardReply) : List Json :=
  match reply.json? with
  | some (.arr list) => list
  | _ => []

def members (reply : ShardReply) : SortedMap String Json :=
  match reply.json? with
  | some (.obj list) => .ofList list
  | _ => .empty

def alike (shape : Shape) (replies : List ShardReply) : List ShardReply :=
  replies.filter fun reply => reply.shape? = some shape

-- The items of all the replies in their order, or the members of all of them, where under each
-- name stands what the last reply has there.
def Gathers (replies : List ShardReply) (json : Json) : Shape → Prop
  | .list => json = .arr (replies.flatMap items)
  | .record => ∃ union : SortedMap String Json, json = .obj union.entries ∧
      ∀ name, union.get? name = replies.reverse.findSome? (·.members.get? name)

-- What has been merged once replies of one shape have been, and the last status among them.
def joined (status : Nat) (replies : List ShardReply) : Shape → Merged
  | .list => .items status (replies.flatMap items)
  | .record => .members status (.union (replies.map members))

theorem get?_union_members (replies : List ShardReply) (name : String) :
    (SortedMap.union (replies.map members)).get? name =
      replies.reverse.findSome? (·.members.get? name) := by
  rw [SortedMap.get?_union, ← List.map_reverse, List.findSome?_map]
  rfl

theorem gathers_record_iff {replies : List ShardReply} {json : Json} :
    Gathers replies json .record ↔
      json = .obj (SortedMap.union (replies.map members)).entries := by
  constructor
  · rintro ⟨union, rfl, hunion⟩
    have hsame : union = .union (replies.map members) := SortedMap.eq_of_get?_eq fun name =>
      (hunion name).trans (get?_union_members replies name).symm
    rw [hsame]
  · rintro rfl
    exact ⟨_, rfl, get?_union_members replies⟩

theorem Gathers.unique {replies : List ShardReply} {json other : Json} {shape : Shape}
    (h : Gathers replies json shape) (hother : Gathers replies other shape) : json = other := by
  cases shape with
  | list => exact h.trans hother.symm
  | record => exact (gathers_record_iff.mp h).trans (gathers_record_iff.mp hother).symm

section Steps

variable {reply : ShardReply} {shape : Shape}

theorem json?_of_list (h : reply.shape? = some .list) : reply.json? = some (.arr reply.items) := by
  unfold shape? at h
  split at h
  next list hjson => simp only [items, hjson]
  next => cases h
  next => cases h

theorem json?_of_record (h : reply.shape? = some .record) :
    ∃ list, reply.json? = some (.obj list) ∧ reply.members = .ofList list := by
  unfold shape? at h
  split at h
  next => cases h
  next list hjson => exact ⟨list, hjson, by simp only [members, hjson]⟩
  next => cases h

theorem add_of_shape?_eq_none (h : reply.shape? = none) (merged : Merged) :
    merged.add reply = merged := by
  unfold shape? at h
  split at h
  next => cases h
  next => cases h
  next harr hobj =>
    unfold Merged.add
    split
    next hjson => exact absurd hjson (harr _)
    next hjson => exact absurd hjson (hobj _)
    next hjson => exact absurd hjson (harr _)
    next hjson => exact absurd hjson (hobj _)
    next => rfl

-- The first reply that has a shape decides on it.
theorem add_nothing (h : reply.shape? = some shape) :
    Merged.nothing.add reply = joined reply.status [reply] shape := by
  cases shape with
  | list => simp [Merged.add, joined, json?_of_list h]
  | record =>
      obtain ⟨list, hjson, hmembers⟩ := json?_of_record h
      simp [Merged.add, joined, hjson, hmembers, SortedMap.union_singleton]

-- From then on one of that shape is merged, and any other is left out.
theorem add_joined (status : Nat) (replies : List ShardReply) (shape : Shape) (reply : ShardReply) :
    (joined status replies shape).add reply =
      if reply.shape? = some shape then joined reply.status (replies ++ [reply]) shape
      else joined status replies shape := by
  cases hreply : reply.shape? with
  | none =>
      rw [add_of_shape?_eq_none hreply]
      rfl
  | some own =>
      cases own with
      | list =>
          cases shape with
          | list => simp [Merged.add, joined, json?_of_list hreply]
          | record => simp [Merged.add, joined, json?_of_list hreply]
      | record =>
          obtain ⟨list, hjson, hmembers⟩ := json?_of_record hreply
          cases shape with
          | list => simp [Merged.add, joined, hjson]
          | record =>
              simp [Merged.add, joined, hjson, hmembers, SortedMap.union_concat,
                SortedMap.insertAll_entries_ofList]

end Steps

section Runs

variable {replies : List ShardReply} {shape : Shape}

-- The status is that of the last reply that was merged.
theorem foldl_add_joined (status : Nat) (seen replies : List ShardReply) (shape : Shape) :
    replies.foldl Merged.add (joined status seen shape) =
      joined (((alike shape replies).getLast?.map (·.status)).getD status)
        (seen ++ alike shape replies) shape := by
  induction replies generalizing status seen with
  | nil => simp [alike]
  | cons reply replies ih =>
      rw [List.foldl_cons, add_joined]
      by_cases hreply : reply.shape? = some shape
      · have halike : alike shape (reply :: replies) = reply :: alike shape replies := by
          simp [alike, hreply]
        rw [if_pos hreply, ih, halike, List.append_assoc, List.singleton_append,
          List.getLast?_cons]
        cases (alike shape replies).getLast? <;> rfl
      · have halike : alike shape (reply :: replies) = alike shape replies := by
          simp [alike, hreply]
        rw [if_neg hreply, ih, halike]

theorem foldl_add_of_none (h : replies.findSome? shape? = none) :
    replies.foldl Merged.add .nothing = .nothing := by
  induction replies with
  | nil => rfl
  | cons reply replies ih =>
      obtain ⟨hreply, hreplies⟩ := List.forall_mem_cons.mp (List.findSome?_eq_none_iff.mp h)
      rw [List.foldl_cons, add_of_shape?_eq_none hreply]
      exact ih (List.findSome?_eq_none_iff.mpr hreplies)

theorem foldl_add_of_some (h : replies.findSome? shape? = some shape) :
    ∃ last, (alike shape replies).getLast? = some last ∧
      replies.foldl Merged.add .nothing = joined last.status (alike shape replies) shape := by
  obtain ⟨before, reply, behind, rfl, hreply, hbefore⟩ := List.findSome?_eq_some_iff.mp h
  have hnone : before.findSome? shape? = none := List.findSome?_eq_none_iff.mpr hbefore
  have halike : alike shape (before ++ reply :: behind) = reply :: alike shape behind := by
    have hdropped : alike shape before = [] :=
      List.filter_eq_nil_iff.mpr fun other hother => by simp [hbefore other hother]
    unfold alike at hdropped ⊢
    simp [hdropped, hreply]
  rw [List.foldl_append, foldl_add_of_none hnone, List.foldl_cons, add_nothing hreply,
    foldl_add_joined, halike, List.getLast?_cons]
  refine ⟨_, rfl, ?_⟩
  cases (alike shape behind).getLast? <;> rfl

theorem merge_of_none {last : ShardReply} (hlast : replies.getLast? = some last)
    (h : replies.findSome? shape? = none) : merge replies = some ⟨last.status, .empty⟩ := by
  unfold merge
  rw [hlast, foldl_add_of_none h]
  rfl

theorem merge_of_some (h : replies.findSome? shape? = some shape) :
    ∃ last json, (alike shape replies).getLast? = some last ∧
      Gathers (alike shape replies) json shape ∧
      merge replies = some ⟨last.status, .text json.print⟩ := by
  obtain ⟨last, hlast, hfold⟩ := foldl_add_of_some h
  have hne : replies ≠ [] := by
    rintro rfl
    cases h
  obtain ⟨final, hfinal⟩ := Option.ne_none_iff_exists'.mp (mt List.getLast?_eq_none_iff.mp hne)
  unfold merge
  rw [hfinal, hfold]
  cases shape with
  | list => exact ⟨last, _, hlast, rfl, rfl⟩
  | record => exact ⟨last, _, hlast, gathers_record_iff.mpr rfl, rfl⟩

-- Only the replies of the shape that was decided on matter.
theorem merge_eq_of_alike {others : List ShardReply} (h : replies.findSome? shape? = some shape)
    (hothers : others.findSome? shape? = some shape)
    (halike : alike shape others = alike shape replies) : merge others = merge replies := by
  obtain ⟨last, json, hlast, hgathers, hmerge⟩ := merge_of_some h
  obtain ⟨final, other, hfinal, hgathers', hmerge'⟩ := merge_of_some hothers
  rw [halike] at hfinal hgathers'
  rw [hmerge, hmerge', hgathers.unique hgathers', Option.some.inj (hlast.symm.trans hfinal)]

theorem merge_remove {before behind : List ShardReply} {reply : ShardReply}
    (h : (before ++ reply :: behind).findSome? shape? = some shape)
    (hreply : reply.shape? ≠ some shape) :
    merge (before ++ behind) = merge (before ++ reply :: behind) := by
  refine merge_eq_of_alike h ?_ (by simp [alike, hreply])
  rw [List.findSome?_append, List.findSome?_cons] at h
  rw [List.findSome?_append]
  cases hbefore : before.findSome? shape? with
  | some own => simpa [hbefore] using h
  | none =>
      cases hown : reply.shape? with
      | some own =>
          rw [hbefore, hown] at h
          exact absurd (hown.trans h) hreply
      | none => simpa [hbefore, hown] using h

theorem merge_of_forall (hne : replies ≠ []) (h : ∀ reply ∈ replies, reply.shape? = some shape) :
    ∃ last json, replies.getLast? = some last ∧ Gathers replies json shape ∧
      merge replies = some ⟨last.status, .text json.print⟩ := by
  have hfind : replies.findSome? shape? = some shape := by
    obtain ⟨reply, others, rfl⟩ := List.exists_cons_of_ne_nil hne
    rw [List.findSome?_cons, h reply List.mem_cons_self]
  have halike : alike shape replies = replies :=
    List.filter_eq_self.mpr fun reply hreply => by simp [h reply hreply]
  rw [← halike]
  simpa only [halike] using merge_of_some hfind

end Runs

section Orders

variable {replies others : List ShardReply} (hperm : replies.Perm others)

include hperm

-- In another order lists give the same items in another order.
theorem merge_perm_lists (hne : replies ≠ [])
    (h : ∀ reply ∈ replies, reply.shape? = some .list) :
    ∃ reply other, merge replies = some reply ∧ merge others = some other ∧
      reply.body = .text (Json.arr (replies.flatMap items)).print ∧
        other.body = .text (Json.arr (others.flatMap items)).print ∧
          (replies.flatMap items).Perm (others.flatMap items) := by
  have hne' : others ≠ [] := fun hempty => hne (by simpa [hempty] using hperm)
  obtain ⟨last, _, -, rfl, hmerge⟩ := merge_of_forall hne h
  obtain ⟨last', _, -, rfl, hmerge'⟩ :=
    merge_of_forall hne' fun reply hreply => h reply (hperm.mem_iff.mpr hreply)
  exact ⟨_, _, hmerge, hmerge', rfl, rfl, hperm.flatMap_right items⟩

-- Where no name comes twice, no reply has anything to overwrite.
theorem merge_perm_records (h : ∀ reply ∈ replies, reply.shape? = some .record)
    (hapart : replies.Pairwise fun a b => a.members.Apart b.members) :
    (merge others).map (·.body) = (merge replies).map (·.body) := by
  by_cases hne : replies = []
  · rw [hne] at hperm ⊢
    rw [List.nil_perm.mp hperm]
  · have hne' : others ≠ [] := fun hempty => hne (by simpa [hempty] using hperm)
    obtain ⟨last, json, -, hgathers, hmerge⟩ := merge_of_forall hne h
    obtain ⟨last', json', -, hgathers', hmerge'⟩ :=
      merge_of_forall hne' fun reply hreply => h reply (hperm.mem_iff.mpr hreply)
    have hunion := SortedMap.union_perm (hperm.map members) (List.pairwise_map.mpr hapart)
    rw [gathers_record_iff] at hgathers hgathers'
    rw [hmerge, hmerge', hgathers, hgathers', hunion]
    rfl

end Orders

-- Any reply at all gives one for all of them.
theorem merge_eq_none_iff (replies : List ShardReply) : merge replies = none ↔ replies = [] := by
  constructor
  · intro h
    by_contra hne
    obtain ⟨last, hlast⟩ := Option.ne_none_iff_exists'.mp (mt List.getLast?_eq_none_iff.mp hne)
    cases hfind : replies.findSome? shape? with
    | none =>
        rw [merge_of_none hlast hfind] at h
        cases h
    | some shape =>
        obtain ⟨_, _, -, -, hmerge⟩ := merge_of_some hfind
        rw [hmerge] at h
        cases h
  · rintro rfl
    rfl

-- The first reply with a shape decides on it. All replies of that shape are merged, and the others
-- make no difference; only if there is none with a shape the last one counts. The order matters as
-- far as the items stand in it, and as far as a member of one reply overwrites that of another.
theorem merge_gathers (replies : List ShardReply) :
    (merge replies = none ↔ replies = []) ∧
      (∀ last, replies.getLast? = some last → replies.findSome? shape? = none →
        merge replies = some ⟨last.status, .empty⟩) ∧
      (∀ shape, replies.findSome? shape? = some shape →
        (∃ last json, (alike shape replies).getLast? = some last ∧
          Gathers (alike shape replies) json shape ∧
            merge replies = some ⟨last.status, .text json.print⟩) ∧
          ∀ before reply behind, replies = before ++ reply :: behind →
            reply.shape? ≠ some shape → merge (before ++ behind) = merge replies) ∧
      ∀ others, replies.Perm others →
        (replies ≠ [] → (∀ reply ∈ replies, reply.shape? = some .list) →
          ∃ reply other, merge replies = some reply ∧ merge others = some other ∧
            reply.body = .text (Json.arr (replies.flatMap items)).print ∧
              other.body = .text (Json.arr (others.flatMap items)).print ∧
                (replies.flatMap items).Perm (others.flatMap items)) ∧
          ((∀ reply ∈ replies, reply.shape? = some .record) →
            (replies.Pairwise fun a b => a.members.Apart b.members) →
              (merge others).map (·.body) = (merge replies).map (·.body)) := by
  refine ⟨merge_eq_none_iff replies, fun last => merge_of_none, fun shape hshape => ?_,
    fun others hperm => ⟨merge_perm_lists hperm, merge_perm_records hperm⟩⟩
  refine ⟨merge_of_some hshape, ?_⟩
  rintro before reply behind rfl hreply
  exact merge_remove hshape hreply

def counted (status : Nat) (name : String) (count : Int) : ShardReply :=
  ⟨status, .text (Json.obj [(name, .int count)]).print⟩

def listed (status : Nat) (count : Int) : ShardReply :=
  ⟨status, .text (Json.arr [.int count]).print⟩

def garbled : ShardReply := ⟨500, .text "bad gateway"⟩

def mixed : List ShardReply := [garbled, counted 200 "b" 1, listed 404 7, counted 202 "a" 2]

-- A record decides on the shape here, and the list has no part in what comes of it.
theorem merge_gathers_mixed :
    merge mixed = some ⟨202, .text (Json.obj [("a", .int 2), ("b", .int 1)]).print⟩ ∧
      merge [garbled, counted 200 "b" 1, counted 202 "a" 2] = merge mixed ∧
      merge [garbled] = some ⟨500, .empty⟩ ∧
      (merge [counted 202 "a" 2, counted 200 "b" 1]).map (·.body) =
        (merge [counted 200 "b" 1, counted 202 "a" 2]).map (·.body) ∧
      ∃ reply other, merge [listed 200 1, listed 404 7] = some reply ∧
        merge [listed 404 7, listed 200 1] = some other ∧
          reply.body = .text (Json.arr [.int 1, .int 7]).print ∧
            other.body = .text (Json.arr [.int 7, .int 1]).print := by
  have hrecord : mixed.findSome? shape? = some .record := by decide +kernel
  have hlast : (alike .record mixed).getLast? = some (counted 202 "a" 2) := by decide +kernel
  have hunion : (Json.obj (SortedMap.union ((alike .record mixed).map members)).entries).print =
      (Json.obj [("a", .int 2), ("b", .int 1)]).print := by decide +kernel
  have hlist : (listed 404 7).shape? ≠ some .record := by decide +kernel
  have hnone : [garbled].findSome? shape? = none := by decide +kernel
  have hrecords : ∀ reply ∈ [counted 200 "b" 1, counted 202 "a" 2],
      reply.shape? = some .record := by decide +kernel
  have hapart : [counted 200 "b" 1, counted 202 "a" 2].Pairwise
      fun a b => a.members.Apart b.members := by decide +kernel
  have hlists : ∀ reply ∈ [listed 200 1, listed 404 7], reply.shape? = some .list := by
    decide +kernel
  have hitems : (Json.arr ([listed 200 1, listed 404 7].flatMap items)).print =
      (Json.arr [.int 1, .int 7]).print := by decide +kernel
  have hitems' : (Json.arr ([listed 404 7, listed 200 1].flatMap items)).print =
      (Json.arr [.int 7, .int 1]).print := by decide +kernel
  obtain ⟨⟨last, json, hmerged, hgathers, hmerge⟩, hremove⟩ :=
    (merge_gathers mixed).2.2.1 .record hrecord
  obtain ⟨reply, other, hreply, hother, hbody, hbody', -⟩ :=
    ((merge_gathers [listed 200 1, listed 404 7]).2.2.2 _ (.swap _ _ _)).1 (by simp) hlists
  refine ⟨?_, hremove [garbled, counted 200 "b" 1] (listed 404 7) [counted 202 "a" 2] rfl hlist,
    (merge_gathers [garbled]).2.1 garbled rfl hnone,
    ((merge_gathers _).2.2.2 _ (.swap _ _ _)).2 hrecords hapart,
    reply, other, hreply, hother, hbody.trans (congrArg _ hitems),
    hbody'.trans (congrArg _ hitems')⟩
  rw [hmerge, gathers_record_iff.mp hgathers, hunion, ← Option.some.inj (hlast.symm.trans hmerged)]
  rfl

end ShardReply

end ShardedLedger
