import ShardedLedger.Proofs.Json.RoundTrip

namespace ShardedLedger.Json

theorem equalItems_iff_eq (items : List Json)
    (heach : ∀ item ∈ items, ∀ other, equal item other = true ↔ item = other) :
    ∀ others, equalItems items others = true ↔ items = others := by
  induction items with
  | nil => intro others; cases others <;> simp [equalItems]
  | cons item items ih =>
      intro others
      cases others with
      | nil => simp [equalItems]
      | cons other others =>
          have hrest := ih (fun next hnext => heach next (by simp [hnext])) others
          simp only [equalItems, Bool.and_eq_true, heach item (by simp) other, hrest,
            List.cons.injEq]

theorem equalMembers_iff_eq (members : List (String × Json))
    (heach : ∀ member ∈ members, ∀ other, equal member.2 other = true ↔ member.2 = other) :
    ∀ others, equalMembers members others = true ↔ members = others := by
  induction members with
  | nil => intro others; cases others <;> simp [equalMembers]
  | cons member members ih =>
      intro others
      cases others with
      | nil => simp [equalMembers]
      | cons other others =>
          have hrest := ih (fun next hnext => heach next (by simp [hnext])) others
          simp only [equalMembers, Bool.and_eq_true, beq_iff_eq, heach member (by simp) other.2,
            hrest, List.cons.injEq, Prod.ext_iff]

-- Only numbers with a fraction can be equal without being the same.
theorem equal_iff_eq {depth : Nat} {a : Json} (h : Readable depth a) :
    ∀ b, equal a b = true ↔ a = b := by
  induction h with
  | null => intro b; cases b <;> simp [equal]
  | bool => intro b; cases b <;> simp [equal]
  | int => intro b; cases b <;> simp [equal]
  | str => intro b; cases b <;> simp [equal]
  | @arr _ items _ ih =>
      intro b
      cases b with
      | arr others => rw [equal, equalItems_iff_eq items ih, arr.injEq]
      | _ => simp [equal]
  | @obj _ members _ ih =>
      intro b
      cases b with
      | obj others => rw [equal, equalMembers_iff_eq members ih, obj.injEq]
      | _ => simp [equal]

theorem beq_iff_eq_of_readable {depth : Nat} {a : Json} (h : Readable depth a) (b : Json) :
    (a == b) = true ↔ a = b :=
  equal_iff_eq h b

end ShardedLedger.Json
