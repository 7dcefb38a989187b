import Mathlib.Data.List.Induction
import Mathlib.Data.Set.Basic
import RagSystem.Data.Builtins
import RagSystem.Data.IpAddress

/-! Allow and deny lists of addresses (`IPAllowlist` in `proxy/app/shared/security.py`). -/

namespace RagSystem.IpAccess

open Ip

/-- The ranges and the set of single addresses of one of the two lists. -/
structure Entries where
  networks : List Network := []
  singles : List String := []
  deriving DecidableEq, Repr

structure IpAllowlist where
  allow : Entries := {}
  deny : Entries := {}
  deriving DecidableEq, Repr

/-- One entry of the constructor or of `add_to_allowlist` and `add_to_denylist`, and whether it was
accepted. -/
def Entries.add (entry : String) (entries : Entries) : Entries × Bool :=
  let entry := stripText entry
  if entry = "" then (entries, false)
  else if '/' ∈ entry.toList then
    match ipNetwork entry with
    | some network => ({ entries with networks := entries.networks ++ [network] }, true)
    | none => (entries, false)
  else ({ entries with singles := entries.singles.insert entry }, true)

def entriesOf (given : List String) : Entries :=
  given.foldl (fun entries entry => (entries.add entry).1) {}

def create (allowlist denylist : List String) : IpAllowlist :=
  { allow := entriesOf allowlist, deny := entriesOf denylist }

def addToAllowlist (entry : String) (list : IpAllowlist) : IpAllowlist × Bool :=
  ({ list with allow := (list.allow.add entry).1 }, (list.allow.add entry).2)

def addToDenylist (entry : String) (list : IpAllowlist) : IpAllowlist × Bool :=
  ({ list with deny := (list.deny.add entry).1 }, (list.deny.add entry).2)

def Entries.remove (entry : String) (entries : Entries) : Entries × Bool :=
  let entry := stripText entry
  if entry ∈ entries.singles then
    ({ entries with singles := entries.singles.filter (· ≠ entry) }, true)
  else
    match ipNetwork entry with
    | some network =>
        if network ∈ entries.networks then
          ({ entries with networks := entries.networks.erase network }, true)
        else (entries, false)
    | none => (entries, false)

def removeFromAllowlist (entry : String) (list : IpAllowlist) : IpAllowlist × Bool :=
  ({ list with allow := (list.allow.remove entry).1 }, (list.allow.remove entry).2)

def isAllowed (ip : String) (list : IpAllowlist) : Bool :=
  if ip ∈ list.deny.singles then false
  else
    match ipAddress ip with
    | none => false
    | some address =>
        if list.deny.networks.any (·.contains address) then false
        else if list.allow.networks = [] ∧ list.allow.singles = [] then true
        else if ip ∈ list.allow.singles then true
        else list.allow.networks.any (·.contains address)

def isDenied (ip : String) (list : IpAllowlist) : Bool :=
  if ip ∈ list.deny.singles then true
  else
    match ipAddress ip with
    | none => true
    | some address => list.deny.networks.any (·.contains address)

inductive Op
  | create (allowlist denylist : List String)
  | addToAllowlist (entry : String)
  | addToDenylist (entry : String)
  | removeFromAllowlist (entry : String)
  deriving DecidableEq, Repr

def perform (list : IpAllowlist) (op : Op) : IpAllowlist :=
  match op with
  | .create allowlist denylist => create allowlist denylist
  | .addToAllowlist entry => (addToAllowlist entry list).1
  | .addToDenylist entry => (addToDenylist entry list).1
  | .removeFromAllowlist entry => (removeFromAllowlist entry list).1

def listAfter (ops : List Op) : IpAllowlist := ops.foldl perform {}

/-! ### The entries that are current -/

inductive Entry
  | single (text : String)
  | range (network : Network)
  | malformed (text : String)
  deriving DecidableEq, Repr

def readEntry (text : String) : Option Entry :=
  let entry := stripText text
  if entry = "" then none
  else if '/' ∈ entry.toList then
    match ipNetwork entry with
    | some network => some (.range network)
    | none => some (.malformed entry)
  else some (.single entry)

structure Ledger where
  allow : List Entry := []
  deny : List Entry := []
  deriving DecidableEq, Repr

def enter (text : String) (entries : List Entry) : List Entry :=
  match readEntry text with
  | none => entries
  | some (.malformed _) => entries
  | some entry => entries ++ [entry]

def withdraw (text : String) (entries : List Entry) : List Entry :=
  let entry := stripText text
  if .single entry ∈ entries then entries.filter (· ≠ .single entry)
  else
    match ipNetwork entry with
    | some network => entries.erase (.range network)
    | none => entries

def record (ledger : Ledger) (op : Op) : Ledger :=
  match op with
  | .create allowlist denylist => ⟨allowlist.filterMap readEntry, denylist.filterMap readEntry⟩
  | .addToAllowlist entry => { ledger with allow := enter entry ledger.allow }
  | .addToDenylist entry => { ledger with deny := enter entry ledger.deny }
  | .removeFromAllowlist entry => { ledger with allow := withdraw entry ledger.allow }

def ledgerAfter (ops : List Op) : Ledger := ops.foldl record {}

/-- The entry is the address in some spelling, or a range with it. -/
def Entry.Denotes (address : Address) : Entry → Prop
  | .single text => ∃ other, ipAddress text = some other ∧ other.canonical = address.canonical
  | .range network => ∃ other, network.contains other = true ∧ other.canonical = address.canonical
  | .malformed _ => False

def Entry.IsMalformed : Entry → Prop
  | .single text => ipAddress text = none
  | .range _ => False
  | .malformed _ => True

def Permitted (ledger : Ledger) (ip : String) : Prop :=
  ∃ address, ipAddress ip = some address ∧ (∀ entry ∈ ledger.deny, ¬entry.Denotes address) ∧
    (ledger.allow ≠ [] → ∃ entry ∈ ledger.allow, entry.Denotes address)

def SameAddress (ip other : String) : Prop :=
  ∃ address spelled, ipAddress ip = some address ∧ ipAddress other = some spelled ∧
    address.canonical = spelled.canonical

/-- The list decides on addresses, for the texts that are asked about. -/
structure Decides (asked : Set String) (ledger : Ledger) (list : IpAllowlist) : Prop where
  decides : ∀ ip ∈ asked, isAllowed ip list = true ↔ Permitted ledger ip
  spellings : ∀ ip ∈ asked, ∀ other ∈ asked, SameAddress ip other →
    isAllowed ip list = isAllowed other list
  malformed : ledger.allow ≠ [] → (∀ entry ∈ ledger.allow, entry.IsMalformed) →
    ∀ ip ∈ asked, isAllowed ip list = false
  denied : ∀ ip ∈ asked, isAllowed ip list = true → isDenied ip list = false

/-- The entry is the very text, or a range of the same version with the address. -/
def Entry.Matches (ip : String) (address : Address) : Entry → Prop
  | .single text => text = ip
  | .range network => network.contains address = true
  | .malformed _ => False

/-- The entry is a range that could not be read. -/
def Entry.IsDropped : Entry → Prop
  | .malformed _ => True
  | _ => False

/-- The entries decide on the address as they are written: a deny entry for it matches, unless the
allow entries are there and none of them does; and if it is not denied, the allow entries are not
all dropped, and if one is for the address then one matches. -/
structure Literal (ledger : Ledger) (ip : String) (address : Address) : Prop where
  denied : (∃ entry ∈ ledger.deny, entry.Denotes address) →
    (∃ entry ∈ ledger.deny, entry.Matches ip address) ∨
      ((∃ entry ∈ ledger.allow, ¬entry.IsDropped) ∧
        ∀ entry ∈ ledger.allow, ¬entry.Matches ip address)
  kept : (∀ entry ∈ ledger.deny, ¬entry.Denotes address) → ledger.allow ≠ [] →
    ∃ entry ∈ ledger.allow, ¬entry.IsDropped
  allowed : (∀ entry ∈ ledger.deny, ¬entry.Denotes address) →
    (∃ entry ∈ ledger.allow, entry.Denotes address) →
      ∃ entry ∈ ledger.allow, entry.Matches ip address

/-! ### The lists hold the current entries -/

def Entry.range? : Entry → Option Network
  | .range network => some network
  | _ => none

structure Refines (entries : Entries) (held : List Entry) : Prop where
  singles : ∀ text, text ∈ entries.singles ↔ .single text ∈ held
  networks : entries.networks = held.filterMap Entry.range?

variable {entries : Entries} {held : List Entry} {text ip other : String} {address : Address}

theorem Refines.empty : Refines {} [] := ⟨by simp, rfl⟩

theorem add_eq (text : String) (entries : Entries) :
    (entries.add text).1 =
      match readEntry text with
      | some (.single entry) => { entries with singles := entries.singles.insert entry }
      | some (.range network) => { entries with networks := entries.networks ++ [network] }
      | _ => entries := by
  unfold Entries.add readEntry
  dsimp only
  split
  · rfl
  · split
    · cases ipNetwork (stripText text) with
      | none => rfl
      | some network => rfl
    · rfl

theorem Refines.append (refines : Refines entries held) (text : String) :
    Refines (entries.add text).1 (held ++ (readEntry text).toList) := by
  rw [add_eq]
  cases readEntry text with
  | none => simpa using refines
  | some entry =>
      cases entry with
      | single entry =>
          constructor
          · intro text
            simp [refines.singles, or_comm]
          · simp [refines.networks, Entry.range?]
      | range network =>
          constructor
          · intro text
            simp [refines.singles]
          · simp [refines.networks, Entry.range?]
      | malformed entry =>
          constructor
          · intro text
            simp [refines.singles]
          · simp [refines.networks, Entry.range?]

theorem Refines.enter (refines : Refines entries held) (text : String) :
    Refines (entries.add text).1 (enter text held) := by
  have appended := refines.append text
  rw [add_eq] at appended ⊢
  unfold IpAccess.enter
  cases read : readEntry text with
  | none => exact refines
  | some entry =>
      rw [read] at appended
      cases entry with
      | single entry => exact appended
      | range network => exact appended
      | malformed entry => exact refines

theorem Refines.given (refines : Refines entries held) (given : List String) :
    Refines (given.foldl (fun entries entry => (entries.add entry).1) entries)
      (held ++ given.filterMap readEntry) := by
  induction given generalizing entries held with
  | nil => simpa using refines
  | cons text rest ih =>
      have later := ih (refines.append text)
      rw [List.append_assoc] at later
      rw [List.foldl_cons]
      cases read : readEntry text with
      | none =>
          rw [List.filterMap_cons_none read]
          simpa [read] using later
      | some entry =>
          rw [List.filterMap_cons_some read]
          simpa [read] using later

theorem entriesOf_refines (given : List String) :
    Refines (entriesOf given) (given.filterMap readEntry) :=
  Refines.empty.given given

theorem filterMap_erase_range (network : Network) (held : List Entry) :
    (held.erase (.range network)).filterMap Entry.range? =
      (held.filterMap Entry.range?).erase network := by
  induction held with
  | nil => rfl
  | cons entry rest ih =>
      by_cases same : entry = .range network
      · subst same
        simp [Entry.range?]
      · rw [List.erase_cons_tail (by simpa using same)]
        cases entry with
        | range other =>
            have differs : other ≠ network := fun equal => same (by rw [equal])
            simp [Entry.range?, List.erase_cons_tail, differs, ih]
        | single text =>
            rw [List.filterMap_cons_none rfl, List.filterMap_cons_none rfl]
            exact ih
        | malformed text =>
            rw [List.filterMap_cons_none rfl, List.filterMap_cons_none rfl]
            exact ih

theorem filterMap_filter_single (text : String) (held : List Entry) :
    (held.filter (· ≠ .single text)).filterMap Entry.range? = held.filterMap Entry.range? := by
  rw [List.filterMap_filter]
  apply List.filterMap_congr
  intro entry _
  cases entry with
  | single other => simp [Entry.range?]
  | range network => simp
  | malformed other => simp

theorem Refines.withdraw (refines : Refines entries held) (text : String) :
    Refines (entries.remove text).1 (withdraw text held) := by
  unfold Entries.remove IpAccess.withdraw
  dsimp only
  by_cases single : stripText text ∈ entries.singles
  · rw [if_pos single, if_pos ((refines.singles _).mp single)]
    constructor
    · intro other
      simp [refines.singles]
    · rw [filterMap_filter_single]
      exact refines.networks
  · rw [if_neg single, if_neg (fun held => single ((refines.singles _).mpr held))]
    cases ipNetwork (stripText text) with
    | none => exact refines
    | some network =>
        have kept : ∀ other, .single other ∈ held.erase (.range network) ↔ .single other ∈ held :=
          fun other => List.mem_erase_of_ne (by simp)
        by_cases present : network ∈ entries.networks
        · simp only [present, if_true]
          refine ⟨fun other => (refines.singles other).trans (kept other).symm, ?_⟩
          rw [filterMap_erase_range, refines.networks]
        · simp only [present, if_false]
          refine ⟨fun other => (refines.singles other).trans (kept other).symm, ?_⟩
          rw [filterMap_erase_range, ← refines.networks, List.erase_of_not_mem present]

theorem perform_refines {list : IpAllowlist} {ledger : Ledger}
    (allow : Refines list.allow ledger.allow) (deny : Refines list.deny ledger.deny) (op : Op) :
    Refines (perform list op).allow (record ledger op).allow ∧
      Refines (perform list op).deny (record ledger op).deny := by
  cases op with
  | create allowlist denylist =>
      exact ⟨entriesOf_refines allowlist, entriesOf_refines denylist⟩
  | addToAllowlist entry =>
      simp only [perform, addToAllowlist, record]
      exact ⟨allow.enter entry, deny⟩
  | addToDenylist entry =>
      simp only [perform, addToDenylist, record]
      exact ⟨allow, deny.enter entry⟩
  | removeFromAllowlist entry =>
      simp only [perform, removeFromAllowlist, record]
      exact ⟨allow.withdraw entry, deny⟩

theorem listAfter_refines (ops : List Op) :
    Refines (listAfter ops).allow (ledgerAfter ops).allow ∧
      Refines (listAfter ops).deny (ledgerAfter ops).deny := by
  induction ops using List.reverseRecOn with
  | nil => exact ⟨Refines.empty, Refines.empty⟩
  | append_singleton ops op ih =>
      have list : listAfter (ops ++ [op]) = perform (listAfter ops) op := List.foldl_concat ..
      have ledger : ledgerAfter (ops ++ [op]) = record (ledgerAfter ops) op := List.foldl_concat ..
      rw [list, ledger]
      exact perform_refines ih.1 ih.2 op

/-! ### What the entries stand for -/

theorem Entry.Matches.denotes {entry : Entry} (matched : entry.Matches ip address)
    (read : ipAddress ip = some address) : entry.Denotes address := by
  cases entry with
  | single text =>
      obtain rfl : text = ip := matched
      exact ⟨address, read, rfl⟩
  | range network => exact ⟨address, matched, rfl⟩
  | malformed text => exact matched

theorem Entry.Denotes.congr {entry : Entry} {spelled : Address}
    (same : address.canonical = spelled.canonical) :
    entry.Denotes address ↔ entry.Denotes spelled := by
  cases entry <;> simp only [Entry.Denotes, same]

theorem Entry.IsMalformed.not_denotes {entry : Entry} (malformed : entry.IsMalformed) :
    ¬entry.Denotes address := by
  cases entry with
  | single text =>
      intro given
      rcases given with ⟨other, read, -⟩
      rw [show ipAddress text = none from malformed] at read
      cases read
  | range network => exact malformed.elim
  | malformed text => exact id

theorem Entry.IsDropped.isMalformed {entry : Entry} (dropped : entry.IsDropped) :
    entry.IsMalformed := by
  cases entry with
  | single text => exact dropped.elim
  | range network => exact dropped.elim
  | malformed text => exact trivial

theorem Refines.matches_iff (refines : Refines entries held) :
    (∃ entry ∈ held, entry.Matches ip address) ↔
      ip ∈ entries.singles ∨ entries.networks.any (·.contains address) = true := by
  rw [refines.singles, refines.networks, List.any_eq_true]
  constructor
  · intro given
    rcases given with ⟨entry, member, matched⟩
    cases entry with
    | single text =>
        obtain rfl : text = ip := matched
        exact Or.inl member
    | range network => exact Or.inr ⟨network, List.mem_filterMap.mpr ⟨_, member, rfl⟩, matched⟩
    | malformed text => exact matched.elim
  · intro given
    rcases given with single | ⟨network, member, inside⟩
    · exact ⟨.single ip, single, rfl⟩
    · obtain ⟨entry, listed, range⟩ := List.mem_filterMap.mp member
      cases entry with
      | single text => cases range
      | range other =>
          obtain rfl := Option.some.inj range
          exact ⟨.range other, listed, inside⟩
      | malformed text => cases range

theorem Refines.empty_iff (refines : Refines entries held) :
    (entries.networks = [] ∧ entries.singles = []) ↔ ∀ entry ∈ held, entry.IsDropped := by
  constructor
  · intro given entry member
    rcases given with ⟨networks, singles⟩
    cases entry with
    | single text =>
        have listed := (refines.singles text).mpr member
        rw [singles] at listed
        cases listed
    | range network =>
        have listed : network ∈ entries.networks := by
          rw [refines.networks]
          exact List.mem_filterMap.mpr ⟨_, member, rfl⟩
        rw [networks] at listed
        cases listed
    | malformed text => exact trivial
  · intro dropped
    constructor
    · rw [refines.networks, List.filterMap_eq_nil_iff]
      intro entry member
      cases entry with
      | single text => rfl
      | range network => exact (dropped _ member).elim
      | malformed text => rfl
    · refine List.eq_nil_iff_forall_not_mem.mpr (fun text listed => ?_)
      exact dropped _ ((refines.singles text).mp listed)

theorem isAllowed_iff {ledger : Ledger} {list : IpAllowlist}
    (allow : Refines list.allow ledger.allow) (deny : Refines list.deny ledger.deny) :
    isAllowed ip list = true ↔ ∃ address, ipAddress ip = some address ∧
      ¬(∃ entry ∈ ledger.deny, entry.Matches ip address) ∧
      ((∀ entry ∈ ledger.allow, entry.IsDropped) ∨
        ∃ entry ∈ ledger.allow, entry.Matches ip address) := by
  simp only [deny.matches_iff, allow.matches_iff, ← allow.empty_iff]
  unfold isAllowed
  by_cases denied : ip ∈ list.deny.singles
  · simp [denied]
  · cases read : ipAddress ip with
    | none => simp [denied]
    | some address =>
        simp only [denied, if_false, false_or, Option.some.injEq, exists_eq_left']
        split
        · simp_all
        · split
          · simp_all
          · split
            · simp_all
            · simp_all

theorem isDenied_of_isAllowed {list : IpAllowlist} (allowed : isAllowed ip list = true) :
    isDenied ip list = false := by
  unfold isAllowed at allowed
  unfold isDenied
  split at allowed
  · cases allowed
  · rename_i free
    rw [if_neg free]
    cases read : ipAddress ip with
    | none => simp [read] at allowed
    | some address =>
        rw [read] at allowed
        dsimp only at allowed ⊢
        split at allowed
        · cases allowed
        · rename_i outside
          exact Bool.eq_false_iff.mpr outside

theorem permitted_iff (read : ipAddress ip = some address) {ledger : Ledger} :
    Permitted ledger ip ↔ ¬(∃ entry ∈ ledger.deny, entry.Denotes address) ∧
      (ledger.allow ≠ [] → ∃ entry ∈ ledger.allow, entry.Denotes address) := by
  unfold Permitted
  rw [read]
  simp

theorem Permitted.congr {ledger : Ledger} (same : SameAddress ip other) :
    Permitted ledger ip ↔ Permitted ledger other := by
  obtain ⟨address, spelled, read, reread, canonical⟩ := same
  rw [permitted_iff read, permitted_iff reread]
  simp only [Entry.Denotes.congr canonical]

theorem decisions_agree_iff {denies denied given dropped allows allowed : Prop}
    (deny : denies → denied) (allow : allows → allowed) (empty : ¬given → dropped)
    (nothing : dropped → ¬allowed) :
    (¬denies ∧ (dropped ∨ allows) ↔ ¬denied ∧ (given → allowed)) ↔
      (denied → denies ∨ ¬dropped ∧ ¬allows) ∧ (¬denied → given → ¬dropped) ∧
        (¬denied → allowed → allows) := by
  grind

theorem answer_iff {ledger : Ledger} {list : IpAllowlist}
    (allow : Refines list.allow ledger.allow) (deny : Refines list.deny ledger.deny) :
    (isAllowed ip list = true ↔ Permitted ledger ip) ↔
      ∀ address, ipAddress ip = some address → Literal ledger ip address := by
  rw [isAllowed_iff allow deny]
  cases read : ipAddress ip with
  | none => simp [Permitted, read]
  | some address =>
      have matchedDenotes : ∀ entries : List Entry, (∃ entry ∈ entries, entry.Matches ip address) →
          ∃ entry ∈ entries, entry.Denotes address :=
        fun entries ⟨entry, member, matched⟩ => ⟨entry, member, matched.denotes read⟩
      rw [permitted_iff read]
      simp only [Option.some.injEq, exists_eq_left', forall_eq']
      rw [decisions_agree_iff (matchedDenotes _) (matchedDenotes _)]
      · simp only [not_forall, not_exists, not_and, exists_prop, ne_eq]
        constructor
        · intro given
          rcases given with ⟨denied, kept, allowed⟩
          exact ⟨denied, kept, allowed⟩
        · intro given
          rcases given with ⟨denied, kept, allowed⟩
          exact ⟨denied, kept, allowed⟩
      · intro empty entry member
        rw [not_not.mp empty] at member
        cases member
      · intro dropped given
        rcases given with ⟨entry, member, denotes⟩
        exact (dropped entry member).isMalformed.not_denotes denotes

/-- For any calls and any texts that are asked about, the list decides on addresses exactly when
the current entries are literal for these texts. -/
theorem decides_iff (ops : List Op) (asked : Set String) :
    Decides asked (ledgerAfter ops) (listAfter ops) ↔ ∀ ip ∈ asked, ∀ address,
      ipAddress ip = some address → Literal (ledgerAfter ops) ip address := by
  obtain ⟨allow, deny⟩ := listAfter_refines ops
  constructor
  · intro decides ip member
    exact (answer_iff allow deny).mp (decides.decides ip member)
  · intro literal
    have answers : ∀ ip ∈ asked, isAllowed ip (listAfter ops) = true ↔
        Permitted (ledgerAfter ops) ip :=
      fun ip member => (answer_iff allow deny).mpr (literal ip member)
    refine ⟨answers, ?_, ?_, fun ip _ allowed => isDenied_of_isAllowed allowed⟩
    · intro ip member other asks same
      rw [Bool.eq_iff_iff, answers ip member, answers other asks]
      exact Permitted.congr same
    · intro configured malformed ip member
      rw [Bool.eq_false_iff, ne_eq, answers ip member]
      intro given
      rcases given with ⟨address, -, -, allowed⟩
      obtain ⟨entry, listed, denotes⟩ := allowed configured
      exact (malformed entry listed).not_denotes denotes

def spelledDeny : List Op := [.create [] ["2001:db8::1"]]

def malformedAllow : List Op := [.create ["10.0.0.0/33"] []]

/-- Another spelling of a denied address is allowed, and a malformed range allows everyone. -/
theorem spelling_allowed_and_malformed_ignored :
    (¬Decides Set.univ (ledgerAfter spelledDeny) (listAfter spelledDeny)) ∧
      ¬Decides Set.univ (ledgerAfter malformedAllow) (listAfter malformedAllow) := by
  constructor
  · intro decides
    have same : SameAddress "2001:db8::1" "2001:DB8::1" :=
      ⟨.v6 0x20010db8000000000000000000000001#128 none,
        .v6 0x20010db8000000000000000000000001#128 none, by decide +kernel, by decide +kernel, rfl⟩
    have equal := decides.spellings "2001:db8::1" trivial "2001:DB8::1" trivial same
    revert equal
    decide +kernel
  · intro decides
    have entries : (ledgerAfter malformedAllow).allow = [.malformed "10.0.0.0/33"] := by
      decide +kernel
    have refused := decides.malformed (by simp [entries]) (by simp [entries, Entry.IsMalformed])
      "8.8.8.8" trivial
    revert refused
    decide +kernel

end RagSystem.IpAccess
