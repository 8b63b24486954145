import Mathlib.Data.List.Pairwise
import ShardedLedger.Proofs.Except
import ShardedLedger.Settings.Flags

namespace ShardedLedger

theorem Numeral.le_of_readDigits {greatest value number : Nat} {digits : List Char}
    (hvalue : value ≤ greatest) (h : readDigits greatest value digits = .ok number) :
    number ≤ greatest := by
  fun_induction readDigits greatest value digits with
  | case1 value =>
      cases h
      exact hvalue
  | case2 => cases h
  | case3 value c rest hdigit next hfits ih => exact ih (Nat.le_of_not_lt hfits) h
  | case4 => cases h

theorem Numeral.le_of_parse {greatest number : Nat} {text : String}
    (h : parse greatest text = .ok number) : number ≤ greatest := by
  unfold parse at h
  split at h
  · cases h
  · cases h
  · exact le_of_readDigits (Nat.zero_le greatest) h
  · exact le_of_readDigits (Nat.zero_le greatest) h

namespace Flag

variable {σ : Type} {flags : List (Flag σ)} {flag other : Flag σ} {state next : σ}

section Scanning

variable {argument value : String} {xs : List String}

theorem scan_cons_of_unknown (h : flags.find? (·.name = argument) = none) (rest : List String)
    (state : σ) : scan flags (argument :: rest) state = scan flags rest state := by
  cases rest <;> simp [scan, h]

theorem scan_cons_of_known (h : flags.find? (·.name = argument) = some flag) (value : String)
    (rest : List String) (state : σ) :
    scan flags (argument :: value :: rest) state =
      flag.set value state >>= scan flags rest := by
  simp only [scan, h]
  cases flag.set value state <;> rfl

theorem scan_cons_of_set (h : flags.find? (·.name = argument) = some flag)
    (hset : flag.set value state = .ok next) (rest : List String) :
    scan flags (argument :: value :: rest) state = scan flags rest next := by
  rw [scan_cons_of_known h, hset]
  rfl

theorem scan_singleton (h : flags.find? (·.name = argument) = some flag) (state : σ) :
    scan flags [argument] state = .error (.missingValue argument) := by
  simp [scan, h]

-- By induction along the scan: without an error it ends behind the last argument, and never
-- between a flag and its value.
theorem scan_append (h : scan flags xs state = .ok next) (ys : List String) :
    scan flags (xs ++ ys) state = scan flags ys next := by
  fun_induction scan flags xs state with
  | case1 state =>
      cases h
      rfl
  | case2 argument state hknown => cases h
  | case3 argument state hknown =>
      cases h
      rw [Bool.not_eq_true, Option.isSome_eq_false_iff, Option.isNone_iff_eq_none] at hknown
      exact scan_cons_of_unknown hknown ys _
  | case4 argument value rest state hunknown ih =>
      exact (scan_cons_of_unknown hunknown (value :: rest ++ ys) state).trans (ih h)
  | case5 argument value rest state flag hknown between hset ih =>
      exact (scan_cons_of_set hknown hset (rest ++ ys)).trans (ih h)
  | case6 argument value rest state flag hknown error hset => cases h

end Scanning

section Writing

-- What a flag writes is read from its value alone, and not from the settings.
class Writes (flag : Flag σ) (α : outParam Type) (read : outParam (String → Except ValueError α))
    (write : outParam (σ → α → σ)) : Prop where
  apply_eq : ∀ state value, flag.apply state value = (read value).map (write state)

instance (name : String) (write : σ → String → σ) : Writes (text name write) String .ok write :=
  ⟨fun _ _ => rfl⟩

def readAddress (value : String) : Except ValueError SocketAddress :=
  match SocketAddress.parse? value with
  | some address => .ok address
  | none => .error .notAnAddress

instance (name : String) (write : σ → SocketAddress → σ) :
    Writes (address name write) SocketAddress readAddress write where
  apply_eq state value := by
    simp only [address, readAddress]
    cases SocketAddress.parse? value <;> rfl

theorem readAddress_eq_ok_iff {value : String} {address : SocketAddress} :
    readAddress value = .ok address ↔ SocketAddress.parse? value = some address := by
  unfold readAddress
  split <;> simp [*]

def readNumber (greatest : Nat) (value : String) : Except ValueError Nat :=
  (Numeral.parse greatest value).mapError .numeral

instance (name : String) (greatest : Nat) (write : σ → Nat → σ) :
    Writes (number name greatest write) Nat (readNumber greatest) write where
  apply_eq state value := by
    simp only [number, readNumber]
    cases Numeral.parse greatest value <;> rfl

def readPositive (greatest : Nat) (value : String) : Except ValueError Nat := do
  let number ← readNumber greatest value
  if number = 0 then .error .notPositive else .ok number

instance (name : String) (greatest : Nat) (write : σ → Nat → σ) :
    Writes (positive name greatest write) Nat (readPositive greatest) write where
  apply_eq state value := by
    simp only [positive, readPositive, readNumber]
    cases Numeral.parse greatest value with
    | error error => rfl
    | ok number => cases number <;> rfl

theorem readNumber_eq_ok_iff {greatest : Nat} {value : String} {number : Nat} :
    readNumber greatest value = .ok number ↔ Numeral.parse greatest value = .ok number :=
  mapError_eq_ok_iff

theorem readPositive_eq_ok_iff {greatest : Nat} {value : String} {number : Nat} :
    readPositive greatest value = .ok number ↔
      0 < number ∧ Numeral.parse greatest value = .ok number := by
  simp only [readPositive, bind_eq_ok_iff, readNumber_eq_ok_iff]
  constructor
  · rintro ⟨other, hparse, hnumber⟩
    split at hnumber
    next => cases hnumber
    next hzero =>
      cases hnumber
      exact ⟨Nat.pos_of_ne_zero hzero, hparse⟩
  · rintro ⟨hpos, hparse⟩
    exact ⟨number, hparse, if_neg (Nat.ne_of_gt hpos)⟩

variable {α : Type} {read : String → Except ValueError α} {write : σ → α → σ}

theorem set_eq_ok_iff [flag.Writes α read write] {value : String} :
    flag.set value state = .ok next ↔ ∃ x, read value = .ok x ∧ write state x = next := by
  rw [set, mapError_eq_ok_iff, Writes.apply_eq]
  cases read value <;> simp [Except.map]

theorem set_eq_error_iff [flag.Writes α read write] {value : String} {error : SettingsError} :
    flag.set value state = .error error ↔
      ∃ cause, read value = .error cause ∧ .invalidValue flag.name value cause = error := by
  rw [set, mapError_eq_error_iff, Writes.apply_eq]
  cases read value <;> simp [Except.map]

end Writing

section Independence

-- A value is refused whatever the settings are, and what an accepted one has changed makes no
-- difference to a later one.
structure IsSetting (flag : Flag σ) : Prop where
  steady : ∀ {state value error}, flag.set value state = .error error →
    ∀ other, flag.set value other = .error error
  overwrites : ∀ {state next value}, flag.set value state = .ok next →
    ∀ later, flag.set later next = flag.set later state

-- Two flags whose values can be written in either order.
structure Separate (flag other : Flag σ) : Prop where
  name_ne : flag.name ≠ other.name
  commute : ∀ {state first second value otherValue},
    flag.set value state = .ok first → other.set otherValue state = .ok second →
      ∃ both, other.set otherValue first = .ok both ∧ flag.set value second = .ok both

structure Independent (flags : List (Flag σ)) : Prop where
  isSetting : ∀ flag ∈ flags, flag.IsSetting
  separate : flags.Pairwise Separate

variable {α β : Type} {read : String → Except ValueError α} {write : σ → α → σ}
  {readOther : String → Except ValueError β} {writeOther : σ → β → σ}

theorem IsSetting.of_writes [flag.Writes α read write]
    (h : ∀ state x y, write (write state x) y = write state y) : flag.IsSetting where
  steady hset _ := set_eq_error_iff.mpr (set_eq_error_iff.mp hset)
  overwrites hset later := by
    obtain ⟨x, -, rfl⟩ := set_eq_ok_iff.mp hset
    simp only [set, Writes.apply_eq]
    cases read later with
    | error error => rfl
    | ok y => exact congrArg Except.ok (h _ x y)

theorem IsSetting.settled (h : flag.IsSetting) {value : String}
    (hset : flag.set value state = .ok next) : flag.set value next = .ok next :=
  (h.overwrites hset value).trans hset

theorem Separate.of_writes [flag.Writes α read write] [other.Writes β readOther writeOther]
    (hne : flag.name ≠ other.name)
    (h : ∀ state x y, writeOther (write state x) y = write (writeOther state y) x) :
    Separate flag other where
  name_ne := hne
  commute hset hother := by
    obtain ⟨x, hread, rfl⟩ := set_eq_ok_iff.mp hset
    obtain ⟨y, hreadOther, rfl⟩ := set_eq_ok_iff.mp hother
    exact ⟨_, set_eq_ok_iff.mpr ⟨y, hreadOther, h _ x y⟩, set_eq_ok_iff.mpr ⟨x, hread, rfl⟩⟩

instance : Std.Symm (@Separate σ) where
  symm _ _ h :=
    { name_ne := h.name_ne.symm
      commute := fun hother hset => by
        obtain ⟨both, hboth, hback⟩ := h.commute hset hother
        exact ⟨both, hback, hboth⟩ }

-- A name belongs to one flag only.
theorem Independent.find?_name (h : Independent flags) (hflag : flag ∈ flags) :
    flags.find? (·.name = flag.name) = some flag := by
  cases hfound : flags.find? (·.name = flag.name) with
  | none => exact absurd (List.find?_eq_none.mp hfound flag hflag) (by simp)
  | some found =>
      have hname : found.name = flag.name := by simpa using List.find?_some hfound
      have hmem := List.mem_of_find?_eq_some hfound
      by_contra hne
      have hapart : found ≠ flag := fun he => hne (congrArg some he)
      exact (h.separate.forall hmem hflag hapart).name_ne hname

-- One accepted value is enough: whether the other one is refused does not depend on the order.
theorem Independent.scan_swap (h : Independent flags) (hflag : flag ∈ flags)
    (hother : other ∈ flags) (hne : flag.name ≠ other.name) {value : String}
    (hset : flag.set value state = .ok next) (otherValue : String) (rest : List String) :
    scan flags (flag.name :: value :: other.name :: otherValue :: rest) state =
      scan flags (other.name :: otherValue :: flag.name :: value :: rest) state := by
  have hapart := h.separate.forall hflag hother fun he => hne (congrArg name he)
  have hflagFound := h.find?_name hflag
  have hotherFound := h.find?_name hother
  rw [scan_cons_of_set hflagFound hset]
  cases hotherSet : other.set otherValue state with
  | error error =>
      have hrefused : other.set otherValue next = .error error :=
        (h.isSetting other hother).steady hotherSet next
      rw [scan_cons_of_known hotherFound, scan_cons_of_known hotherFound, hrefused, hotherSet]
      rfl
  | ok second =>
      obtain ⟨both, hboth, hback⟩ := hapart.commute hset hotherSet
      rw [scan_cons_of_set hotherFound hboth, scan_cons_of_set hotherFound hotherSet,
        scan_cons_of_set hflagFound hback]

end Independence

section Overriding

-- The settings differ at most in what the flag sets.
def AgreeBut (flag : Flag σ) (state other : σ) : Prop :=
  ∀ value, flag.set value state = flag.set value other

theorem Independent.agreeBut_set (h : Independent flags) (hflag : flag ∈ flags)
    (hother : other ∈ flags) {first second : σ} (hagree : flag.AgreeBut first second)
    {value : String} (hset : other.set value first = .ok next) :
    ∃ after, other.set value second = .ok after ∧ flag.AgreeBut next after := by
  by_cases hsame : flag = other
  · subst hsame
    exact ⟨next, (hagree value).symm.trans hset, fun _ => rfl⟩
  · have hapart := h.separate.forall hflag hother hsame
    cases hsecond : other.set value second with
    | error error =>
        rw [(h.isSetting other hother).steady hsecond first] at hset
        cases hset
    | ok after =>
        refine ⟨after, rfl, fun later => ?_⟩
        cases hlater : flag.set later first with
        | error error =>
            have hrefused := (h.isSetting flag hflag).steady hlater
            exact (hrefused next).trans (hrefused after).symm
        | ok reached =>
            obtain ⟨both, hboth, hback⟩ := hapart.commute hlater hset
            obtain ⟨both', hboth', hback'⟩ :=
              hapart.commute ((hagree later).symm.trans hlater) hsecond
            rw [hboth] at hboth'
            cases hboth'
            exact hback.trans hback'.symm

theorem Independent.agreeBut_scan (h : Independent flags) (hflag : flag ∈ flags)
    {args : List String} {first second : σ} (hagree : flag.AgreeBut first second)
    (hscan : scan flags args first = .ok next) :
    ∃ after, scan flags args second = .ok after ∧ flag.AgreeBut next after := by
  fun_induction scan flags args first generalizing second with
  | case1 state =>
      cases hscan
      exact ⟨second, rfl, hagree⟩
  | case2 argument state hknown => cases hscan
  | case3 argument state hknown =>
      cases hscan
      exact ⟨second, by simp [scan, hknown], hagree⟩
  | case4 argument value rest state hunknown ih =>
      rw [scan_cons_of_unknown hunknown]
      exact ih hagree hscan
  | case5 argument value rest state found hfound between hset ih =>
      obtain ⟨after, hafter, hstill⟩ :=
        h.agreeBut_set hflag (List.mem_of_find?_eq_some hfound) hagree hset
      rw [scan_cons_of_set hfound hafter]
      exact ih hstill hscan
  | case6 argument value rest state found hfound error hset => cases hscan

-- An accepted value may as well be left out if the flag is given again later.
theorem Independent.scan_override (h : Independent flags) (hflag : flag ∈ flags)
    {value : String} (hset : flag.set value state = .ok next) {ys : List String} {reached : σ}
    (hscan : scan flags ys next = .ok reached) (later : String) (zs : List String) :
    scan flags (flag.name :: value :: (ys ++ flag.name :: later :: zs)) state =
      scan flags (ys ++ flag.name :: later :: zs) state := by
  have hfound := h.find?_name hflag
  obtain ⟨after, hafter, hagree⟩ :=
    h.agreeBut_scan hflag ((h.isSetting flag hflag).overwrites hset) hscan
  rw [scan_cons_of_set hfound hset, scan_append hscan, scan_append hafter]
  simp only [scan, hfound, hagree later]

end Overriding

section LastValues

-- The value that a flag is given last, if flags are told from values as the scan does it.
def lastValue? (flags : List (Flag σ)) (name : String) : List String → Option String
  | [] => none
  | [_] => none
  | argument :: value :: rest =>
      if (flags.find? (·.name = argument)).isSome then
        (lastValue? flags name rest).or (if argument = name then some value else none)
      else lastValue? flags name (value :: rest)

-- Setting a flag leaves all others at the values they have.
theorem Independent.set_keeps (h : Independent flags) (hflag : flag ∈ flags)
    (hother : other ∈ flags) (hne : flag ≠ other) {value held : String}
    (hset : other.set value state = .ok next) (hheld : flag.set held state = .ok state) :
    flag.set held next = .ok next := by
  obtain ⟨both, hboth, hback⟩ := (h.separate.forall hother hflag hne.symm).commute hset hheld
  rw [hback] at hset
  cases hset
  exact hboth

-- By induction along the scan. A flag is held at a value that would change nothing any more:
-- first the one it starts with, then each one that it is given.
theorem Independent.set_lastValue (h : Independent flags) (hflag : flag ∈ flags)
    {args : List String} (hscan : scan flags args state = .ok next) {held : String}
    (hheld : flag.set held state = .ok state) :
    flag.set ((lastValue? flags flag.name args).getD held) next = .ok next := by
  fun_induction scan flags args state generalizing held with
  | case1 state =>
      cases hscan
      exact hheld
  | case2 argument state hknown => cases hscan
  | case3 argument state hknown =>
      cases hscan
      exact hheld
  | case4 argument value rest state hunknown ih =>
      simp only [lastValue?, hunknown, Option.isSome_none, Bool.false_eq_true, ite_false]
      exact ih hscan hheld
  | case5 argument value rest state found hfound between hset ih =>
      have hlast : (lastValue? flags flag.name (argument :: value :: rest)).getD held =
          (lastValue? flags flag.name rest).getD
            (if argument = flag.name then value else held) := by
        simp only [lastValue?, hfound, Option.isSome_some, ite_true, Option.getD_or]
        split <;> rfl
      have hname : found.name = argument := by simpa using List.find?_some hfound
      rw [hlast]
      refine ih hscan ?_
      split
      next hsame =>
        rw [hsame, h.find?_name hflag] at hfound
        cases hfound
        exact (h.isSetting flag hflag).settled hset
      next hne =>
        have hother : flag ≠ found := fun he => hne (hname.symm.trans (congrArg name he).symm)
        exact h.set_keeps hflag (List.mem_of_find?_eq_some hfound) hother hset hheld
  | case6 argument value rest state found hfound error hset => cases hscan

end LastValues

end Flag

end ShardedLedger
