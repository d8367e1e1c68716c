import MindMapVault.Throttle.ClientIp
import Mathlib.Data.List.DropRight

/-!
# Lists of proxy ranges in one column

The ranges an operator trusts are stored as one text with commas between them, and read back
by splitting it and trimming the pieces. An address has no comma, so what an update accepts
comes back as it was stored.
-/

namespace MindMapVault
namespace Instance

open Throttle (Reader IpAddr IpNet toDigit takeDigits readNumber readGivenChar readSeparator
  readOctets readIpv4Addr readGroups readIpv6Addr readIpAddr parseWith)

/-- `split_cidrs`. -/
def splitCidrs (raw : String) : List String :=
  ((raw.toList.splitOn ',').map fun entry => Vault.trim (String.ofList entry)).filter (· != "")

/-- `join_cidrs`. -/
def joinCidrs (entries : List String) : String := ",".intercalate entries

/-- The entries that an update or a list carries, trimmed and without the empty ones. -/
def cleaned (entries : List String) : List String := (entries.map Vault.trim).filter (· != "")

/-- An entry as it is stored. -/
structure IsEntry (entry : String) : Prop where
  trimmed : Vault.trim entry = entry
  nonempty : entry ≠ ""
  single : ',' ∉ entry.toList

/-! ### Trimming -/

section Trim

variable {matching : Char → Bool}

theorem trimList_eq_rdropWhile (chars : List Char) :
    Text.trimList matching chars = (chars.dropWhile matching).rdropWhile matching := rfl

/-- What is trimmed is not trimmed further. -/
theorem trimList_trimList (chars : List Char) :
    Text.trimList matching (Text.trimList matching chars) = Text.trimList matching chars := by
  have starts : (Text.trimList matching chars).dropWhile matching =
      Text.trimList matching chars := by
    rw [List.dropWhile_eq_self_iff]
    intro nonempty matched
    have inFront := List.rdropWhile_prefix matching (chars.dropWhile matching)
    rw [← trimList_eq_rdropWhile] at inFront
    have longer : 0 < (chars.dropWhile matching).length :=
      Nat.lt_of_lt_of_le nonempty inFront.length_le
    have same : (Text.trimList matching chars)[0] = (chars.dropWhile matching)[0] :=
      inFront.getElem nonempty
    have stopped := List.dropWhile_get_zero_not matching chars longer
    rw [List.get_eq_getElem] at stopped
    exact stopped (same ▸ matched)
  rw [trimList_eq_rdropWhile (Text.trimList matching chars), starts, trimList_eq_rdropWhile]
  exact List.rdropWhile_idempotent matching _

theorem trim_trim (text : String) : Vault.trim (Vault.trim text) = Vault.trim text := by
  rw [Vault.trim, Vault.trim, Text.trimMatches, Text.toList_trimMatches, trimList_trimList,
    Text.trimMatches]

theorem trimList_subset (chars : List Char) :
    Text.trimList matching chars ⊆ chars := by
  intro char listed
  rw [trimList_eq_rdropWhile] at listed
  exact (List.dropWhile_sublist matching).subset ((List.rdropWhile_prefix matching _).subset listed)

/-- A piece without commas is an entry once it is trimmed, if anything is left of it. -/
theorem isEntry_trim {text : String} (single : ',' ∉ text.toList)
    (nonempty : Vault.trim text ≠ "") : IsEntry (Vault.trim text) where
  trimmed := trim_trim text
  nonempty := nonempty
  single := fun inside => by
    rw [Vault.trim, Text.toList_trimMatches] at inside
    exact single (trimList_subset _ inside)

end Trim

/-! ### Round trip -/

/-- Whatever is read from the column are entries. -/
theorem isEntry_of_mem_splitCidrs {raw entry : String} (listed : entry ∈ splitCidrs raw) :
    IsEntry entry := by
  obtain ⟨inside, nonempty⟩ := List.mem_filter.mp listed
  obtain ⟨piece, isPiece, rfl⟩ := List.mem_map.mp inside
  refine isEntry_trim ?_ (bne_iff_ne.mp nonempty)
  rw [String.toList_ofList]
  exact Text.not_mem_of_mem_splitOn isPiece

/-- Entries are read from the column as they were stored. -/
theorem splitCidrs_joinCidrs {entries : List String} (each : ∀ entry ∈ entries, IsEntry entry) :
    splitCidrs (joinCidrs entries) = entries := by
  by_cases none : entries = []
  · rw [none]
    rfl
  · have pieces : (joinCidrs entries).toList.splitOn ',' = entries.map String.toList := by
      rw [joinCidrs, String.toList_intercalate]
      refine List.splitOn_intercalate ',' ?_ (List.map_eq_nil_iff.not.mpr none)
      exact List.forall_mem_map.mpr fun entry listed => (each entry listed).single
    have same : (entries.map String.toList).map (fun entry => Vault.trim (String.ofList entry)) =
        entries := by
      rw [List.map_map]
      refine (List.map_congr_left fun entry listed => ?_).trans (List.map_id entries)
      rw [Function.comp_apply, String.ofList_toList, (each entry listed).trimmed, id]
    rw [splitCidrs, pieces, same, List.filter_eq_self]
    exact fun entry listed => bne_iff_ne.mpr (each entry listed).nonempty

/-! ### Addresses -/

/-- A reader that reads no comma. -/
def Commaless {Value : Type} (reader : Reader Value) : Prop :=
  ∀ text value rest, reader text = some (value, rest) → ∃ front, text = front ++ rest ∧ ',' ∉ front

section Readers

theorem takeDigits_commaless (radix : Nat) (text : List Char) :
    ∃ front, text = front ++ (takeDigits radix text).2 ∧ ',' ∉ front := by
  induction text with
  | nil => exact ⟨[], rfl, List.not_mem_nil⟩
  | cons char rest ih =>
      rw [takeDigits]
      cases isDigit : toDigit radix char with
      | none => exact ⟨[], rfl, List.not_mem_nil⟩
      | some digit =>
          obtain ⟨front, split, single⟩ := ih
          refine ⟨char :: front, congrArg (char :: ·) split, ?_⟩
          rw [List.mem_cons, not_or]
          refine ⟨?_, single⟩
          rintro rfl
          have noDigit : toDigit radix ',' = none := rfl
          rw [noDigit] at isDigit
          cases isDigit

theorem commaless_readNumber (radix : Nat) (maxDigits : Option Nat) (allowZeroPrefix : Bool)
    (largest : Nat) : Commaless (readNumber radix maxDigits allowZeroPrefix largest) := by
  intro text value rest read
  obtain ⟨front, split, single⟩ := takeDigits_commaless radix text
  unfold readNumber at read
  simp only at read
  split_ifs at read
  obtain ⟨-, rfl⟩ := Prod.mk.inj (Option.some.inj read)
  exact ⟨front, split, single⟩

theorem commaless_readGivenChar {given : Char} (other : given ≠ ',') :
    Commaless (readGivenChar given) := by
  intro text value rest read
  cases text with
  | nil => cases read
  | cons char text =>
      rw [readGivenChar] at read
      split_ifs at read with same
      obtain ⟨-, rfl⟩ := Prod.mk.inj (Option.some.inj read)
      refine ⟨[char], rfl, ?_⟩
      rw [List.mem_singleton, same]
      exact Ne.symm other

/-- One reader after the other. -/
theorem exists_append {first second rest text : List Char} (split : text = first ++ second)
    (single : ',' ∉ first) (later : ∃ front, second = front ++ rest ∧ ',' ∉ front) :
    ∃ front, text = front ++ rest ∧ ',' ∉ front := by
  obtain ⟨front, rfl, alone⟩ := later
  refine ⟨first ++ front, by rw [split, List.append_assoc], ?_⟩
  rw [List.mem_append, not_or]
  exact ⟨single, alone⟩

theorem commaless_readSeparator {Value : Type} {separator : Char} (index : Nat)
    {inner : Reader Value} (other : separator ≠ ',') (commaless : Commaless inner) :
    Commaless (readSeparator separator index inner) := by
  intro text value rest read
  rw [readSeparator] at read
  split_ifs at read
  · obtain ⟨⟨_, between⟩, isGiven, isRest⟩ := Option.bind_eq_some_iff.mp read
    obtain ⟨front, split, single⟩ := commaless_readGivenChar other _ _ _ isGiven
    exact exists_append split single (commaless _ _ _ isRest)
  · exact commaless _ _ _ read

theorem commaless_readOctets (index count : Nat) : Commaless (readOctets index count) := by
  induction count generalizing index with
  | zero =>
      intro text value rest read
      obtain ⟨-, rfl⟩ := Prod.mk.inj (Option.some.inj read)
      exact ⟨[], rfl, List.not_mem_nil⟩
  | succ count ih =>
      intro text value rest read
      rw [readOctets] at read
      obtain ⟨⟨octet, between⟩, isOctet, isRest⟩ := Option.bind_eq_some_iff.mp read
      obtain ⟨⟨octets, after⟩, isOctets, same⟩ := Option.map_eq_some_iff.mp isRest
      obtain ⟨-, rfl⟩ := Prod.mk.inj same
      obtain ⟨front, split, single⟩ := commaless_readSeparator index (by decide)
        (commaless_readNumber 10 (some 3) false 255) _ _ _ isOctet
      exact exists_append split single (ih _ _ _ _ isOctets)

theorem commaless_readIpv4Addr : Commaless readIpv4Addr := by
  intro text value rest read
  obtain ⟨⟨octets, after⟩, isOctets, same⟩ := Option.map_eq_some_iff.mp read
  obtain ⟨-, rfl⟩ := Prod.mk.inj same
  exact commaless_readOctets 0 4 _ _ _ isOctets

theorem readGroups_commaless (index count : Nat) (text : List Char) :
    ∃ front, text = front ++ (readGroups index count text).2.2 ∧ ',' ∉ front := by
  induction count generalizing index text with
  | zero => exact ⟨[], rfl, List.not_mem_nil⟩
  | succ count ih =>
      rw [readGroups]
      split
      · rename_i bits rest embedded
        split_ifs at embedded
        exact commaless_readSeparator index (by decide) commaless_readIpv4Addr _ _ _ embedded
      · split
        · exact ⟨[], rfl, List.not_mem_nil⟩
        · rename_i group rest isGroup
          obtain ⟨front, split, single⟩ := commaless_readSeparator index (by decide)
            (commaless_readNumber 16 (some 4) true 65535) _ _ _ isGroup
          exact exists_append split single (ih (index + 1) rest)

theorem commaless_readIpv6Addr : Commaless readIpv6Addr := by
  intro text value rest read
  obtain ⟨front, split, single⟩ := readGroups_commaless 0 8 text
  unfold readIpv6Addr at read
  simp only at read
  split_ifs at read
  · obtain ⟨-, rfl⟩ := Prod.mk.inj (Option.some.inj read)
    exact ⟨front, split, single⟩
  · split at read
    · rename_i after colons
      obtain ⟨-, rfl⟩ := Prod.mk.inj (Option.some.inj read)
      refine exists_append split single ?_
      rw [colons]
      exact exists_append (by rfl : ':' :: ':' :: after = [':', ':'] ++ after) (by decide)
        (readGroups_commaless 0 _ after)
    · cases read

theorem commaless_readIpAddr : Commaless readIpAddr := by
  intro text value rest read
  rw [readIpAddr] at read
  split at read
  · rename_i bits after isAddress
    obtain ⟨-, rfl⟩ := Prod.mk.inj (Option.some.inj read)
    exact commaless_readIpv4Addr _ _ _ isAddress
  · obtain ⟨⟨bits, after⟩, isAddress, same⟩ := Option.map_eq_some_iff.mp read
    obtain ⟨-, rfl⟩ := Prod.mk.inj same
    exact commaless_readIpv6Addr _ _ _ isAddress

/-- An address has no comma. -/
theorem not_mem_of_parseWith {text : List Char} {address : IpAddr}
    (read : parseWith readIpAddr text = some address) : ',' ∉ text := by
  rw [parseWith] at read
  split at read
  · rename_i value isAddress
    obtain ⟨front, split, single⟩ := commaless_readIpAddr _ _ _ isAddress
    rw [split, List.append_nil]
    exact single
  · cases read

end Readers

/-! ### Entries of an update -/

section Parse

variable (parseNet : List Char → Option IpNet)

/-- The entries that `TrustedProxies::parse` cannot read. `parseNet` reads a range. -/
def rejectedCidrs (entries : List String) : List String :=
  (cleaned entries).filter fun raw =>
    (parseNet raw.toList).isNone && (parseWith readIpAddr raw.toList).isNone

/-- What an update accepts are entries, if a range has no comma. -/
theorem isEntry_of_not_rejected (noComma : ∀ text net, parseNet text = some net → ',' ∉ text)
    {entries : List String} (accepted : rejectedCidrs parseNet entries = []) :
    ∀ entry ∈ cleaned entries, IsEntry entry := by
  intro entry listed
  have read := List.filter_eq_nil_iff.mp accepted entry listed
  obtain ⟨inside, nonempty⟩ := List.mem_filter.mp listed
  obtain ⟨text, -, rfl⟩ := List.mem_map.mp inside
  refine ⟨trim_trim text, bne_iff_ne.mp nonempty, ?_⟩
  cases isNet : parseNet (Vault.trim text).toList with
  | some net => exact noComma _ _ isNet
  | none =>
      cases isAddress : parseWith readIpAddr (Vault.trim text).toList with
      | some address => exact not_mem_of_parseWith isAddress
      | none =>
          rw [isNet, isAddress] at read
          exact absurd rfl read

end Parse

end Instance
end MindMapVault
