import ShardedLedger.Proofs.Ledger.Hierarchy
import ShardedLedger.Routing.Paths

namespace ShardedLedger

namespace Text

theorem behind_append (start a b : List Char) : behind (start ++ a) (start ++ b) = behind a b := by
  induction start with
  | nil => rfl
  | cons c start ih => simp [behind, ih]

-- By induction on the text: a piece ends where a separator stands.
theorem notMem_of_mem_splitOn {separator : Char} {text piece : List Char}
    (h : piece ∈ splitOn separator text) : separator ∉ piece := by
  induction text generalizing piece with
  | nil =>
      obtain rfl := List.mem_singleton.mp h
      exact List.not_mem_nil
  | cons c rest ih =>
      obtain ⟨first, pieces, hpieces⟩ := List.exists_cons_of_ne_nil (splitOn_ne_nil separator rest)
      by_cases he : c = separator
      · simp only [splitOn, he, ite_true, List.mem_cons] at h
        rcases h with rfl | h
        · exact List.not_mem_nil
        · exact ih h
      · simp only [splitOn, he, ite_false, hpieces, List.mem_cons] at h
        rcases h with rfl | h
        · have hfirst := ih (hpieces ▸ List.mem_cons_self)
          exact fun hmem => (List.mem_cons.mp hmem).elim (Ne.symm he) hfirst
        · exact ih (hpieces ▸ List.mem_cons_of_mem first h)

-- Pieces that have no separator in them are read back from the text.
theorem splitOn_intercalate {separator : Char} {pieces : List (List Char)} (hne : pieces ≠ [])
    (h : ∀ piece ∈ pieces, separator ∉ piece) :
    splitOn separator ([separator].intercalate pieces) = pieces := by
  induction pieces with
  | nil => exact absurd rfl hne
  | cons first rest ih =>
      obtain ⟨hfirst, hrest⟩ := List.forall_mem_cons.mp h
      cases rest with
      | nil => rw [List.intercalate_singleton, splitOn_of_notMem hfirst]
      | cons next rest =>
          rw [List.intercalate_cons_cons, List.append_assoc, List.singleton_append,
            splitOn_append, splitOn_of_notMem hfirst, ih (List.cons_ne_nil next rest) hrest,
            List.singleton_append]

theorem dropTrailing_append (c : Char) (s : String) : ∃ count,
    s.toList = (dropTrailing c s).toList ++ List.replicate count c ∧
      (dropTrailing c s).toList.getLast? ≠ some c := by
  have htrailing : s.toList.reverse.takeWhile (· = c) =
      List.replicate (s.toList.reverse.takeWhile (· = c)).length c :=
    List.eq_replicate_of_mem fun d hd => of_decide_eq_true (List.all_eq_true.mp List.all_takeWhile d hd)
  refine ⟨(s.toList.reverse.takeWhile (· = c)).length, ?_, ?_⟩
  · rw [← List.reverse_replicate, ← htrailing, dropTrailing, String.toList_ofList,
      ← List.reverse_append, List.takeWhile_append_dropWhile, List.reverse_reverse]
  · rw [dropTrailing, String.toList_ofList, List.getLast?_reverse]
    intro hhead
    have hnot := List.head?_dropWhile_not (· = c) s.toList.reverse
    rw [hhead] at hnot
    simp at hnot

end Text

-- The forms of the paths that lead somewhere.
inductive PathForm where
  | accounts
  | account (name : String)
  | actionOn (name action : String)
  | activeAccounts
  | summary
  deriving DecidableEq

namespace PathForm

def path (prefixText : String) : PathForm → String
  | accounts => prefixText ++ "/accounts"
  | account name => prefixText ++ "/accounts/" ++ name
  | actionOn name action => prefixText ++ "/accounts/" ++ name ++ "/" ++ action
  | activeAccounts => prefixText ++ "/activeaccounts"
  | summary => prefixText ++ "/summary"

-- A name or an action may be empty, but has no slash in it.
def IsPlain : PathForm → Prop
  | account name => '/' ∉ name.toList
  | actionOn name action => '/' ∉ name.toList ∧ '/' ∉ action.toList
  | _ => True

def destination : PathForm → Destination
  | accounts => ⟨"*", ""⟩
  | account name => ⟨name, ""⟩
  | actionOn name action => ⟨name, action⟩
  | activeAccounts => ⟨"*", "activeaccounts"⟩
  | summary => ⟨"*", "summary"⟩

-- What stands between the slashes behind the prefix.
def pieces : PathForm → List (List Char)
  | accounts => ["accounts".toList]
  | account name => ["accounts".toList, name.toList]
  | actionOn name action => ["accounts".toList, name.toList, action.toList]
  | activeAccounts => ["activeaccounts".toList]
  | summary => ["summary".toList]

variable {form other : PathForm}

theorem toList_path (prefixText : String) (form : PathForm) :
    (form.path prefixText).toList = prefixText.toList ++ '/' :: ['/'].intercalate form.pieces := by
  cases form <;> simp [path, pieces, List.intercalate]

theorem pieces_ne_nil (form : PathForm) : form.pieces ≠ [] := by
  cases form <;> exact List.cons_ne_nil _ _

theorem IsPlain.notMem (h : form.IsPlain) : ∀ piece ∈ form.pieces, '/' ∉ piece := by
  cases form with
  | account name => simpa [pieces, IsPlain] using h
  | actionOn name action => simpa [pieces, IsPlain] using h
  | _ => simp [pieces]

theorem pieces_injective (h : form.pieces = other.pieces) : form = other := by
  cases form <;> cases other <;> simp_all [pieces, String.toList_inj]

-- The slashes behind the prefix tell the forms apart, whatever the prefix is.
theorem IsPlain.path_injective (hform : form.IsPlain) (hother : other.IsPlain)
    {prefixText : String} (h : form.path prefixText = other.path prefixText) : form = other := by
  have hlist := congrArg String.toList h
  rw [toList_path, toList_path, List.append_cancel_left_eq, List.cons.injEq] at hlist
  refine pieces_injective ?_
  rw [← Text.splitOn_intercalate form.pieces_ne_nil hform.notMem, hlist.2,
    Text.splitOn_intercalate other.pieces_ne_nil hother.notMem]

end PathForm

namespace Paths

variable (paths : Paths)

theorem behind_accounts (rest : String) :
    Text.behind paths.accounts.toList (paths.prefixText ++ rest).toList =
      Text.behind "/accounts".toList rest.toList := by
  rw [accounts, String.toList_append, String.toList_append, Text.behind_append]

theorem append_ne {a b : String} (h : a ≠ b) : paths.prefixText ++ a ≠ paths.prefixText ++ b := by
  intro he
  have hlist := congrArg String.toList he
  rw [String.toList_append, String.toList_append] at hlist
  exact h (String.toList_inj.mp (List.append_cancel_left hlist))

theorem resolve_accounts : paths.resolve paths.accounts = some ⟨allAccounts, Action.none⟩ := by
  have hbehind : Text.behind paths.accounts.toList paths.accounts.toList = some [] :=
    paths.behind_accounts "/accounts"
  rw [resolve, hbehind]

theorem resolve_activeAccounts :
    paths.resolve paths.activeAccounts = some ⟨allAccounts, Action.activeAccounts⟩ := by
  have hbehind : Text.behind paths.accounts.toList paths.activeAccounts.toList = none :=
    paths.behind_accounts "/activeaccounts"
  rw [resolve, hbehind]
  exact if_pos rfl

theorem resolve_summary : paths.resolve paths.summary = some ⟨allAccounts, Action.summary⟩ := by
  have hbehind : Text.behind paths.accounts.toList paths.summary.toList = none :=
    paths.behind_accounts "/summary"
  have hne : paths.summary ≠ paths.activeAccounts := paths.append_ne (by decide)
  rw [resolve, hbehind]
  exact (if_neg hne).trans (if_pos rfl)

-- Behind the path of all accounts stand an account and perhaps an action, without any slashes.
theorem behind_accounts_append (rest : String) :
    Text.behind paths.accounts.toList (paths.accounts ++ "/" ++ rest).toList =
      some ('/' :: rest.toList) := by
  rw [Text.behind_eq_some_iff, String.toList_append, String.toList_append, List.append_assoc]
  rfl

theorem resolve_account {account : String} (h : '/' ∉ account.toList) :
    paths.resolve (paths.accounts ++ "/" ++ account) = some ⟨account, Action.none⟩ := by
  simp only [resolve, behind_accounts_append, Text.splitOn_of_notMem h, String.ofList_toList]

theorem resolve_action {account action : String} (haccount : '/' ∉ account.toList)
    (haction : '/' ∉ action.toList) :
    paths.resolve (paths.accounts ++ "/" ++ account ++ "/" ++ action) =
      some ⟨account, action⟩ := by
  have hpath : paths.accounts ++ "/" ++ account ++ "/" ++ action =
      paths.accounts ++ "/" ++ (account ++ "/" ++ action) := by
    simp only [String.append_assoc]
  have hsplit : Text.splitOn '/' (account ++ "/" ++ action).toList =
      [account.toList, action.toList] := by
    have hparts := Text.splitOn_append '/' account.toList action.toList
    rw [Text.splitOn_of_notMem haccount, Text.splitOn_of_notMem haction] at hparts
    rw [String.toList_append, String.toList_append, List.append_assoc]
    exact hparts
  simp only [hpath, resolve, behind_accounts_append, hsplit, String.ofList_toList]

theorem accounts_slash : paths.accounts ++ "/" = paths.prefixText ++ "/accounts/" := by
  rw [accounts, String.append_assoc]
  rfl

theorem resolve_path {form : PathForm} (h : form.IsPlain) :
    paths.resolve (form.path paths.prefixText) = some form.destination := by
  cases form with
  | accounts => exact paths.resolve_accounts
  | activeAccounts => exact paths.resolve_activeAccounts
  | summary => exact paths.resolve_summary
  | account name =>
      have hresolve := paths.resolve_account h
      rwa [accounts_slash] at hresolve
  | actionOn name action =>
      have hresolve := paths.resolve_action h.1 h.2
      rwa [accounts_slash] at hresolve

theorem isGlobal_iff (path : String) : paths.isGlobal path = true ↔
    path = paths.accounts ∨ path = paths.activeAccounts ∨ path = paths.summary := by
  simp [isGlobal, or_assoc]

section Resolved

variable {paths} {others : Paths} {path : String} {destination : Destination}

theorem exists_form_of_resolve (h : paths.resolve path = some destination) :
    ∃ form : PathForm, form.IsPlain ∧ form.path paths.prefixText = path ∧
      form.destination = destination := by
  unfold resolve at h
  split at h
  next hbehind =>
    cases h
    have hpath := (Text.behind_eq_some_iff _ _ _).mp hbehind
    rw [List.append_nil] at hpath
    exact ⟨.accounts, trivial, (String.toList_inj.mp hpath).symm, rfl⟩
  next rest hbehind =>
    have hpath := (Text.behind_eq_some_iff _ _ _).mp hbehind
    have hrest := Text.intercalate_splitOn '/' rest
    have hplain (piece : List Char) (hpiece : piece ∈ Text.splitOn '/' rest) :
        '/' ∉ (String.ofList piece).toList := by
      rw [String.toList_ofList]
      exact Text.notMem_of_mem_splitOn hpiece
    split at h
    next account hsplit =>
      cases h
      rw [hsplit] at hrest hplain
      refine ⟨.account (.ofList account), hplain account (by simp), ?_, rfl⟩
      rw [← String.toList_inj, hpath, ← hrest]
      simp [PathForm.path, accounts]
    next account action hsplit =>
      cases h
      rw [hsplit] at hrest hplain
      refine ⟨.actionOn (.ofList account) (.ofList action),
        ⟨hplain account (by simp), hplain action (by simp)⟩, ?_, rfl⟩
      rw [← String.toList_inj, hpath, ← hrest]
      simp [PathForm.path, accounts, List.intercalate]
    next => cases h
  next =>
    unfold resolveListing at h
    split at h
    next hactive =>
      cases h
      exact ⟨.activeAccounts, trivial, hactive.symm, rfl⟩
    next =>
      split at h
      next hsummary =>
        cases h
        exact ⟨.summary, trivial, hsummary.symm, rfl⟩
      next => cases h

-- A path that leads somewhere is one of the three, or ends with an account and perhaps an action.
theorem resolve_cases (h : paths.resolve path = some destination) :
    paths.isGlobal path = true ∨ ∃ start,
      (path.toList = start ++ '/' :: destination.account.toList ∧
        destination.action = Action.none) ∨
      path.toList = start ++ '/' :: destination.action.toList := by
  obtain ⟨form, -, rfl, rfl⟩ := exists_form_of_resolve h
  rw [isGlobal_iff]
  cases form with
  | accounts => exact .inl (.inl rfl)
  | activeAccounts => exact .inl (.inr (.inl rfl))
  | summary => exact .inl (.inr (.inr rfl))
  | account name =>
      refine .inr ⟨paths.accounts.toList, .inl ⟨?_, rfl⟩⟩
      simp [PathForm.path, PathForm.destination, accounts]
  | actionOn name action =>
      refine .inr ⟨paths.accounts.toList ++ '/' :: name.toList, .inr ?_⟩
      simp [PathForm.path, PathForm.destination, accounts]

theorem getLast?_of_isGlobal (h : paths.isGlobal path = true) :
    path.toList.getLast? ∈ [some 's', some 'y'] := by
  have hlast (name : String) (hname : name.toList ≠ []) :
      (paths.prefixText ++ name).toList.getLast? = name.toList.getLast? := by
    rw [String.toList_append, List.getLast?_append_of_ne_nil _ hname]
  rcases (paths.isGlobal_iff path).mp h with rfl | rfl | rfl
  · rw [accounts, hlast _ (by decide)]
    decide
  · rw [activeAccounts, hlast _ (by decide)]
    decide
  · rw [summary, hlast _ (by decide)]
    decide

-- Whatever the prefixes are, a path that changes an account for one of them creates none for
-- another: the last character tells the two apart.
theorem resolve_ne_creation (h : paths.resolve path = some destination)
    (hglobal : paths.isGlobal path = false) (haction : destination.action ∈ Action.writes) :
    others.resolve path ≠ some ⟨allAccounts, Action.none⟩ := by
  have hwrites : ∀ action ∈ Action.writes,
      action ≠ Action.none ∧ ∀ start : List Char,
        (start ++ '/' :: action.toList).getLast? ∈ [some 't', some 'e', some 'w'] := by
    have hlasts : ∀ action ∈ Action.writes, action.toList ≠ [] ∧
        action.toList.getLast? ∈ [some 't', some 'e', some 'w'] := by decide
    intro action haction
    obtain ⟨hne, hlast⟩ := hlasts action haction
    refine ⟨fun he => hne (by rw [he]; rfl), fun start => ?_⟩
    rw [List.getLast?_append_of_ne_nil _ (by simp), List.getLast?_cons_of_ne_nil hne]
    exact hlast
  obtain ⟨hne, hlast⟩ := hwrites _ haction
  have hwritten : path.toList.getLast? ∈ [some 't', some 'e', some 'w'] := by
    rcases resolve_cases h with hall | ⟨start, ⟨-, hnone⟩ | hpath⟩
    · rw [hglobal] at hall
      cases hall
    · exact absurd hnone hne
    · rw [hpath]
      exact hlast start
  intro hcreation
  have hcreated : path.toList.getLast? ∈ [some 's', some 'y', some '*', some '/'] := by
    rcases resolve_cases hcreation with hall | ⟨start, ⟨hpath, -⟩ | hpath⟩
    · exact List.mem_append_left [some '*', some '/'] (getLast?_of_isGlobal hall)
    · rw [hpath, List.getLast?_append_of_ne_nil _ (by simp)]
      decide
    · rw [hpath, List.getLast?_append_of_ne_nil _ (by simp)]
      decide
  have hdisjoint : ∀ last ∈ [some 't', some 'e', some 'w'],
      last ∉ [some 's', some 'y', some '*', some '/'] := by decide
  exact hdisjoint _ hwritten hcreated

end Resolved

-- Below any prefix, less the slashes at its end, a path leads somewhere exactly if it has one of
-- the five forms, and it has one at most. An account and an action come out as they went in.
theorem resolves_five_forms (apiPrefix : String) :
    (∃ count, apiPrefix.toList =
        (below apiPrefix).prefixText.toList ++ List.replicate count '/' ∧
          (below apiPrefix).prefixText.toList.getLast? ≠ some '/') ∧
      (∀ path destination, (below apiPrefix).resolve path = some destination ↔
        ∃ form : PathForm, form.IsPlain ∧ form.path (below apiPrefix).prefixText = path ∧
          form.destination = destination) ∧
      (∀ form other : PathForm, form.IsPlain → other.IsPlain →
        form.path (below apiPrefix).prefixText = other.path (below apiPrefix).prefixText →
          form = other) ∧
      (∀ (key : Key) (action : String), key.IsValid → '/' ∉ action.toList →
        (below apiPrefix).resolve
            ((below apiPrefix).prefixText ++ "/accounts/" ++ key.text ++ "/" ++ action) =
          some ⟨key.text, action⟩) ∧
      ∀ path, (below apiPrefix).isGlobal path = true ↔
        ∃ form ∈ [PathForm.accounts, .activeAccounts, .summary],
          form.path (below apiPrefix).prefixText = path := by
  refine ⟨Text.dropTrailing_append '/' apiPrefix, fun path destination => ?_,
    fun form other hform hother => hform.path_injective hother, fun key action hkey haction => ?_,
    fun path => ?_⟩
  · constructor
    · exact exists_form_of_resolve
    · rintro ⟨form, hplain, rfl, rfl⟩
      exact resolve_path _ hplain
  · have hplain : (PathForm.actionOn key.text action).IsPlain := ⟨hkey.1, haction⟩
    have hresolve := (below apiPrefix).resolve_path hplain
    exact hresolve
  · simp only [isGlobal_iff, List.mem_cons, List.not_mem_nil, or_false, exists_eq_or_imp,
      exists_eq_left, eq_comm (b := path)]
    rfl

-- A prefix, an account and an action that are named like the parts of a path.
theorem resolves_five_forms_nested :
    (below "/accounts//").resolve "/accounts/accounts/summary:a/accounts" =
        some ⟨"summary:a", "accounts"⟩ ∧
      (below "/accounts//").isGlobal "/accounts/accounts" = true ∧
      (below "/accounts//").resolve "/accounts" = none := by
  have hbelow : (below "/accounts//").prefixText = "/accounts" := by decide
  obtain ⟨-, -, -, hkey, hglobal⟩ := resolves_five_forms "/accounts//"
  rw [hbelow] at hkey hglobal
  exact ⟨hkey ⟨"summary:a"⟩ "accounts" (by decide) (by decide),
    (hglobal _).mpr ⟨.accounts, by decide, by decide⟩, by decide +kernel⟩

end Paths

end ShardedLedger
