import MindMapVault.Throttle.IpAddr
import MindMapVault.Vault.VersionId

/-!
# The address a request came from

Behind proxies the caller's address is read from the `X-Forwarded-For` lines,
from the server outwards. The lines a client wrote itself stand in front of what
the proxies appended to them. What is proved here is exactly when the walk ends
at the address the outermost proxy appended: a line that does not read as text is
dropped whole, with everything appended to it.
-/

namespace MindMapVault
namespace Throttle

/-- `HeaderValue`: the bytes of one header line. -/
abbrev HeaderValue := List UInt8

/-- `is_visible_ascii`. -/
def isVisibleAscii (byte : UInt8) : Bool := (32 ≤ byte && byte < 127) || byte == 9

/-- `HeaderValue::to_str`. -/
def toStr (value : HeaderValue) : Option (List Char) :=
  if value.all isVisibleAscii then some (value.map fun byte => Char.ofNat byte.toNat)
  else none

/-- `TrustedProxies`: the address ranges the operator runs proxies on. -/
structure TrustedProxies where
  nets : List IpNet

namespace TrustedProxies

def isEmpty (trusted : TrustedProxies) : Bool := trusted.nets.isEmpty

def contains (trusted : TrustedProxies) (address : IpAddr) : Bool :=
  trusted.nets.any (·.contains address)

theorem isEmpty_of_contains {trusted : TrustedProxies} {address : IpAddr}
    (contained : trusted.contains address = true) : trusted.isEmpty = false := by
  obtain ⟨net, present, _⟩ := List.any_eq_true.mp contained
  exact List.isEmpty_eq_false_iff.mpr (List.ne_nil_of_mem present)

end TrustedProxies

/-- An address, a socket address or a bracketed address. -/
def parseAddress (entry : List Char) : Option IpAddr :=
  match parseWith readIpAddr entry with
  | some address => some address
  | none =>
      match parseWith readSocketAddr entry with
      | some address => some address
      | none =>
          match entry with
          | '[' :: rest => parseWith readIpAddr (rest.takeWhile (· != ']'))
          | _ => none

/-- Every entry of the `X-Forwarded-For` lines, `none` where one is not an
address. Lines that are not text are skipped. -/
def forwardedEntries (headers : List HeaderValue) : List (Option IpAddr) :=
  ((((headers.filterMap toStr).flatMap (·.splitOn ',')).map
      (Text.trimList Vault.isWhitespace)).filter (· != [])).map parseAddress

/-- The walk over the entries, the innermost first. -/
def walk (trusted : TrustedProxies) (nearest : IpAddr) :
    List (Option IpAddr) → IpAddr
  | [] => nearest
  | some address :: rest =>
      if trusted.contains address then walk trusted address rest else address
  | none :: _ => nearest

/-- The address to throttle on. -/
def resolve (headers : List HeaderValue) (peer : Option IpAddr)
    (trusted : TrustedProxies) : IpAddr :=
  let peer := peer.getD IpAddr.unspecified
  if trusted.isEmpty || !trusted.contains peer then peer
  else walk trusted peer (forwardedEntries headers).reverse

/-! ### Lines and what is appended to them -/

/-- The entries of one line; a line that is not text has none. -/
def lineEntries (line : HeaderValue) : List (Option IpAddr) :=
  match toStr line with
  | none => []
  | some raw =>
      (((raw.splitOn ',').map (Text.trimList Vault.isWhitespace)).filter (· != [])).map parseAddress

theorem forwardedEntries_eq (headers : List HeaderValue) :
    forwardedEntries headers = headers.flatMap lineEntries := by
  induction headers with
  | nil => rfl
  | cons line headers ih =>
      rw [List.flatMap_cons, ← ih]
      unfold forwardedEntries lineEntries
      cases text : toStr line with
      | none => rw [List.filterMap_cons_none text, List.nil_append]
      | some raw =>
          rw [List.filterMap_cons_some text]
          simp only [List.flatMap_cons, List.map_append, List.filter_append]

/-- What a proxy appends for the hop before it: one entry that reads as that
hop's address, on a line of its own or at the end of the last line. -/
structure Hop where
  address : IpAddr
  ownLine : Bool
  written : HeaderValue
  text : List Char
  readable : toStr written = some text
  single : ',' ∉ text
  reads : parseAddress (Text.trimList Vault.isWhitespace text) = some address

/-- The lines after a proxy appended its entry. -/
def Hop.append (lines : List HeaderValue) (hop : Hop) : List HeaderValue :=
  if hop.ownLine then lines ++ [hop.written]
  else
    match lines.getLast? with
    | none => [hop.written]
    | some last => lines.dropLast ++ [last ++ 44 :: hop.written]

/-- The lines of a request that came through a chain of proxies, the outermost
one first. -/
def throughProxies (lines : List HeaderValue) (hops : List Hop) :
    List HeaderValue :=
  hops.foldl Hop.append lines

/-- The last line, if there is one, is text. -/
def LastReadable (lines : List HeaderValue) : Prop :=
  ∀ last, lines.getLast? = some last → (toStr last).isSome = true

instance (lines : List HeaderValue) : Decidable (LastReadable lines) :=
  match equal : lines.getLast? with
  | none => .isTrue fun last found => by
      rw [equal] at found
      cases found
  | some last => decidable_of_iff ((toStr last).isSome = true)
      ⟨fun readable other found => by
        rw [equal] at found
        exact Option.some.inj found ▸ readable,
      fun all => all last equal⟩

theorem toStr_append_comma {line written : HeaderValue} {text : List Char}
    (readable : toStr written = some text) :
    toStr (line ++ 44 :: written) = (toStr line).map fun raw => raw ++ ',' :: text := by
  have visible : written.all isVisibleAscii = true := by
    by_contra hidden
    rw [toStr, if_neg hidden] at readable
    cases readable
  rw [toStr, if_pos visible, Option.some.injEq] at readable
  have comma : isVisibleAscii 44 = true := by decide
  unfold toStr
  simp only [List.all_append, List.all_cons, comma, visible, Bool.and_true]
  split_ifs
  · simp [readable]
  · rfl

namespace Hop

variable (hop : Hop)

/-- The text an entry is trimmed to is not empty, or it would be no address. -/
theorem trimmed_ne_nil :
    Text.trimList Vault.isWhitespace hop.text ≠ [] := by
  intro empty
  have reads := hop.reads
  rw [empty] at reads
  cases reads

@[simp] theorem lineEntries_written :
    lineEntries hop.written = [some hop.address] := by
  have whole : hop.text.splitOn ',' = [hop.text] := List.splitOn_eq_singleton hop.single
  simp [lineEntries, hop.readable, whole, hop.reads, hop.trimmed_ne_nil]

/-- An entry added to a readable line is its last entry; added to another line
it is lost with the line. -/
theorem lineEntries_append (line : HeaderValue) :
    lineEntries (line ++ 44 :: hop.written) =
      if (toStr line).isSome then lineEntries line ++ [some hop.address] else [] := by
  unfold lineEntries
  rw [toStr_append_comma hop.readable]
  cases toStr line with
  | none => rfl
  | some raw =>
      have pieces : (raw ++ ',' :: hop.text).splitOn ',' =
          raw.splitOn ',' ++ [hop.text] := by
        rw [List.splitOn_append_cons_self, List.splitOn_eq_singleton hop.single]
      simp [pieces, hop.reads, hop.trimmed_ne_nil]

end Hop

/-- An appended entry is read where it has a line of its own or a readable one. -/
theorem append_readable (lines : List HeaderValue) (hop : Hop)
    (readable : hop.ownLine = true ∨ LastReadable lines) :
    (hop.append lines).flatMap lineEntries =
        lines.flatMap lineEntries ++ [some hop.address] ∧
      LastReadable (hop.append lines) := by
  unfold Hop.append
  by_cases own : hop.ownLine = true
  · rw [if_pos own]
    refine ⟨by simp, fun last found => ?_⟩
    rw [List.getLast?_concat, Option.some.injEq] at found
    rw [← found, hop.readable]
    rfl
  · rw [if_neg own]
    have lastReadable := readable.resolve_left own
    rcases List.eq_nil_or_concat' lines with rfl | ⟨front, last, rfl⟩
    · refine ⟨by simp, fun last found => ?_⟩
      rw [List.getLast?_nil, List.getLast?_singleton, Option.some.injEq] at found
      rw [← found, hop.readable]
      rfl
    · have isText := lastReadable last List.getLast?_concat
      rw [List.getLast?_concat, List.dropLast_concat]
      refine ⟨by simp [hop.lineEntries_append, isText], fun other found => ?_⟩
      rw [List.getLast?_concat, Option.some.injEq] at found
      rw [← found, toStr_append_comma hop.readable, Option.isSome_map]
      exact isText

/-- An entry appended to an unreadable line is not read, and neither is the line
after it. -/
theorem append_unreadable {lines : List HeaderValue} {hop : Hop}
    (sameLine : hop.ownLine = false) (unreadable : ¬ LastReadable lines) :
    (hop.append lines).flatMap lineEntries = lines.flatMap lineEntries ∧
      ¬ LastReadable (hop.append lines) := by
  rcases List.eq_nil_or_concat' lines with rfl | ⟨front, last, rfl⟩
  · exact absurd (fun last found => by cases found) unreadable
  have noText : toStr last = none := by
    by_contra text
    refine unreadable fun other found => ?_
    rw [List.getLast?_concat, Option.some.injEq] at found
    exact found ▸ Option.isSome_iff_ne_none.mpr text
  have none_entries : lineEntries last = [] := by
    rw [lineEntries, noText]
  simp only [Hop.append, sameLine, Bool.false_eq_true, if_false,
    List.getLast?_concat, List.dropLast_concat]
  constructor
  · simp [hop.lineEntries_append, noText, none_entries]
  · intro readable
    have isText := readable _ List.getLast?_concat
    rw [toStr_append_comma hop.readable, noText] at isText
    cases isText

theorem entries_throughProxies
    {lines : List HeaderValue} (readable : LastReadable lines) (hops : List Hop) :
    (throughProxies lines hops).flatMap lineEntries =
      lines.flatMap lineEntries ++ hops.map fun hop => some hop.address := by
  induction hops generalizing lines with
  | nil => simp [throughProxies]
  | cons hop hops ih =>
      obtain ⟨entries, next⟩ := append_readable lines hop (.inr readable)
      have rest := ih next
      rw [throughProxies, List.foldl_cons, ← throughProxies, rest, entries,
        List.map_cons, List.append_assoc, List.singleton_append]

/-- From an unreadable last line on, only what follows the first line of a proxy
is read. -/
theorem entries_throughProxies_unreadable
    {lines : List HeaderValue} (unreadable : ¬ LastReadable lines) (hops : List Hop) :
    ∃ read, read <:+ hops ∧
      (throughProxies lines hops).flatMap lineEntries =
        lines.flatMap lineEntries ++ read.map fun hop => some hop.address := by
  induction hops generalizing lines with
  | nil => exact ⟨[], List.suffix_refl _, by simp [throughProxies]⟩
  | cons hop hops ih =>
      cases own : hop.ownLine with
      | true =>
          obtain ⟨entries, next⟩ := append_readable lines hop (.inl own)
          refine ⟨hop :: hops, List.suffix_refl _, ?_⟩
          rw [throughProxies, List.foldl_cons, ← throughProxies,
            entries_throughProxies next, entries, List.map_cons,
            List.append_assoc, List.singleton_append]
      | false =>
          obtain ⟨entries, next⟩ := append_unreadable own unreadable
          obtain ⟨read, suffix, equal⟩ := ih next
          refine ⟨read, suffix.trans (List.suffix_cons hop hops), ?_⟩
          rw [throughProxies, List.foldl_cons, ← throughProxies, equal, entries]

/-! ### The walk -/

variable {trusted : TrustedProxies}

theorem walk_trusted {nearest : IpAddr} (trustedNearest : trusted.contains nearest = true)
    (inner : List IpAddr) (allTrusted : ∀ address ∈ inner, trusted.contains address = true)
    (outer : List (Option IpAddr)) :
    ∃ last, trusted.contains last = true ∧
      walk trusted nearest (inner.map some ++ outer) = walk trusted last outer := by
  induction inner generalizing nearest with
  | nil => exact ⟨nearest, trustedNearest, rfl⟩
  | cons address inner ih =>
      have first := allTrusted address List.mem_cons_self
      obtain ⟨last, lastTrusted, equal⟩ := ih first
        fun other present => allTrusted other (List.mem_cons_of_mem _ present)
      refine ⟨last, lastTrusted, ?_⟩
      simp only [List.map_cons, List.cons_append, walk, first, if_true]
      exact equal

/-- The walk ends at an untrusted address exactly when only trusted addresses
stand before it. -/
theorem walk_eq_iff {nearest client : IpAddr} (trustedNearest : trusted.contains nearest = true)
    (untrusted : trusted.contains client = false) (entries : List (Option IpAddr)) :
    walk trusted nearest entries = client ↔
      ∃ (inner : List IpAddr) (outer : List (Option IpAddr)),
        entries = inner.map some ++ some client :: outer ∧
          ∀ address ∈ inner, trusted.contains address = true := by
  constructor
  · intro reached
    induction entries generalizing nearest with
    | nil =>
        rw [walk] at reached
        rw [reached, untrusted] at trustedNearest
        cases trustedNearest
    | cons entry entries ih =>
        cases entry with
        | none =>
            rw [walk] at reached
            rw [reached, untrusted] at trustedNearest
            cases trustedNearest
        | some address =>
            by_cases first : trusted.contains address = true
            · rw [walk, if_pos first] at reached
              obtain ⟨inner, outer, rfl, allTrusted⟩ := ih first reached
              refine ⟨address :: inner, outer, rfl, fun other present => ?_⟩
              rcases List.mem_cons.mp present with rfl | later
              · exact first
              · exact allTrusted other later
            · rw [walk, if_neg first] at reached
              exact ⟨[], entries, by rw [reached]; rfl, fun _ present => by cases present⟩
  · rintro ⟨inner, outer, rfl, allTrusted⟩
    obtain ⟨last, _, equal⟩ := walk_trusted trustedNearest inner allTrusted (some client :: outer)
    rw [equal, walk, untrusted, if_neg Bool.false_ne_true]

/-- Whatever trusted addresses were read after them, the entries lead to an
untrusted address exactly when they do so by themselves. -/
theorem walk_append_eq_iff {nearest client : IpAddr}
    (trustedNearest : trusted.contains nearest = true) (untrusted : trusted.contains client = false)
    (entries : List (Option IpAddr)) {read : List IpAddr}
    (allTrusted : ∀ address ∈ read, trusted.contains address = true) :
    walk trusted nearest (entries ++ read.map some).reverse = client ↔
      ∃ (outer : List (Option IpAddr)) (inner : List IpAddr),
        entries = outer ++ some client :: inner.map some ∧
          ∀ address ∈ inner, trusted.contains address = true := by
  rw [List.reverse_append, ← List.map_reverse]
  obtain ⟨last, lastTrusted, equal⟩ := walk_trusted trustedNearest
    read.reverse
    (fun address present => allTrusted address (List.mem_reverse.mp present))
    entries.reverse
  rw [equal, walk_eq_iff lastTrusted untrusted]
  constructor
  · rintro ⟨inner, outer, equal, innerTrusted⟩
    refine ⟨outer.reverse, inner.reverse, ?_, fun address present =>
      innerTrusted address (List.mem_reverse.mp present)⟩
    rw [← List.reverse_reverse entries, equal]
    simp
  · rintro ⟨outer, inner, rfl, innerTrusted⟩
    refine ⟨inner.reverse, outer.reverse, by simp, fun address present =>
      innerTrusted address (List.mem_reverse.mp present)⟩

/-- The lines the client wrote, read without what the proxies appended, lead to
the address: after it they name trusted proxies only. -/
def SpeaksFor (trusted : TrustedProxies) (lines : List HeaderValue) (client : IpAddr) : Prop :=
  ∃ (outer : List (Option IpAddr)) (inner : List IpAddr),
    lines.flatMap lineEntries = outer ++ some client :: inner.map some ∧
      ∀ address ∈ inner, trusted.contains address = true

/-- A request through trusted proxies is throttled on the address the outermost
one appended exactly when that entry went on a line of its own, or on a line that
is text, or the client's own readable lines name the same address there. -/
theorem resolve_throughProxies_iff
    (trusted : TrustedProxies) (lines : List HeaderValue) (peer : IpAddr)
    (outermost : Hop) (inner : List Hop) (peerTrusted : trusted.contains peer = true)
    (clientUntrusted : trusted.contains outermost.address = false)
    (innerTrusted : ∀ hop ∈ inner, trusted.contains hop.address = true) :
    resolve (throughProxies lines (outermost :: inner)) (some peer) trusted =
        outermost.address ↔
      outermost.ownLine = true ∨ LastReadable lines ∨
        SpeaksFor trusted lines outermost.address := by
  have walked : resolve (throughProxies lines (outermost :: inner)) (some peer)
      trusted = walk trusted peer
        ((throughProxies (outermost.append lines) inner).flatMap lineEntries).reverse := by
    rw [resolve, Option.getD_some, TrustedProxies.isEmpty_of_contains peerTrusted,
      peerTrusted, if_neg (by decide), forwardedEntries_eq]
    rfl
  have addresses : ∀ read : List Hop,
      (read.map fun hop => some hop.address) = (read.map Hop.address).map some := fun read => by
    rw [List.map_map]
    rfl
  rw [walked]
  by_cases readable : outermost.ownLine = true ∨ LastReadable lines
  · -- The entry is read, and all that follows it is trusted.
    obtain ⟨entries, next⟩ := append_readable lines outermost readable
    rw [entries_throughProxies next, entries, addresses,
      walk_append_eq_iff peerTrusted clientUntrusted _ fun address present => by
        obtain ⟨hop, hopPresent, rfl⟩ := List.mem_map.mp present
        exact innerTrusted hop hopPresent]
    constructor
    · exact fun _ => readable.elim .inl fun last => .inr (.inl last)
    · exact fun _ => ⟨lines.flatMap lineEntries, [], rfl, fun _ present => by cases present⟩
  · -- The entry is lost; what follows it is read from some proxy's line on.
    rw [not_or, Bool.not_eq_true] at readable
    obtain ⟨entries, next⟩ := append_unreadable readable.1 readable.2
    obtain ⟨read, suffix, equal⟩ := entries_throughProxies_unreadable next inner
    rw [equal, entries, addresses,
      walk_append_eq_iff peerTrusted clientUntrusted _ fun address present => by
        obtain ⟨hop, hopPresent, rfl⟩ := List.mem_map.mp present
        exact innerTrusted hop (suffix.subset hopPresent)]
    constructor
    · exact fun speaks => .inr (.inr speaks)
    · rintro (own | last | speaks)
      · rw [readable.1] at own
        cases own
      · exact absurd last readable.2
      · exact speaks

/-! ### A client that hides the entry the proxy appends -/

section Sample

/-- The bytes of an ASCII text. -/
def asciiBytes (text : String) : HeaderValue := text.toList.map fun char => char.toNat.toUInt8

/-- One proxy, `10.0.0.5`, in a declared range. -/
def sampleTrusted : TrustedProxies := ⟨[.v4 0x0A000000 8]⟩

def samplePeer : IpAddr := IpAddr.ofOctets 10 0 0 5

/-- The proxy appends `, 1.2.3.4` to the last line. -/
def sampleHop : Hop where
  address := IpAddr.ofOctets 1 2 3 4
  ownLine := false
  written := asciiBytes " 1.2.3.4"
  text := " 1.2.3.4".toList
  readable := by decide
  single := by decide
  reads := by decide

/-- The entry is read after one the client prepended on the same line. -/
theorem resolve_throughProxies_iff_sample :
    resolve (throughProxies [asciiBytes "9.9.9.9"] [sampleHop]) (some samplePeer)
      sampleTrusted = sampleHop.address :=
  (resolve_throughProxies_iff sampleTrusted [asciiBytes "9.9.9.9"] samplePeer
    sampleHop [] (by decide) (by decide) (fun _ present => by cases present)).mpr
    (.inr (.inl (by decide)))

/-- A byte that is no text on the last line hides the appended entry, and the
address on the client's first line is believed. -/
theorem forged_address_believed :
    ¬ ∀ (trusted : TrustedProxies) (lines : List HeaderValue) (peer : IpAddr)
        (outermost : Hop) (inner : List Hop),
      trusted.contains peer = true →
      trusted.contains outermost.address = false →
      (∀ hop ∈ inner, trusted.contains hop.address = true) →
      resolve (throughProxies lines (outermost :: inner)) (some peer) trusted =
        outermost.address := by
  intro claimed
  have answer := claimed sampleTrusted [asciiBytes "9.9.9.9", [255]] samplePeer
    sampleHop [] (by decide) (by decide) (fun _ present => by cases present)
  revert answer
  decide

end Sample

end Throttle
end MindMapVault
