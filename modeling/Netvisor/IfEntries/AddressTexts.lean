/-
An IP address and its text.

`parse` is `IpAddr::from_str`. It reads back what `display` writes: the dotted
quad, the eight segments, the `::` for the longest run of zeros, and the dotted
quad at the end of an IPv4 address in IPv6.
-/
import Netvisor.Hosts.Service
import Netvisor.Lib.Reader

namespace Netvisor
namespace IpAddr

open Reader (number separator char value Stops)

/-! ## Reading -/

def readOctet : Reader Nat := number 10 3 256 false

def readIpv4Addr : Reader Nat := fun text => do
  let (one, text) ← separator '.' 0 readOctet text
  let (two, text) ← separator '.' 1 readOctet text
  let (three, text) ← separator '.' 2 readOctet text
  let (four, text) ← separator '.' 3 readOctet text
  return (value 256 [one, two, three, four], text)

/-- Up to `limit` groups from the `i`-th on, and whether a dotted quad ended them. -/
def readGroups : Nat → Nat → List Char → (List Nat × Bool) × List Char
  | 0, _, text => (([], false), text)
  | limit + 1, i, text =>
    -- a dotted quad takes the place of two groups
    match if 0 < limit then separator ':' i readIpv4Addr text else none with
    | some (addr, rest) => (([addr / 65536, addr % 65536], true), rest)
    | none =>
      match separator ':' i (number 16 4 65536 true) text with
      | some (group, rest) =>
        let groups := readGroups limit (i + 1) rest
        ((group :: groups.1.1, groups.1.2), groups.2)
      | none => (([], false), text)

def readIpv6Addr : Reader Nat := fun text =>
  let ((head, headIpv4), rest) := readGroups 8 0 text
  if head.length = 8 then some (value 65536 head, rest)
  else if headIpv4 then none
  else do
    let (_, rest) ← char ':' rest
    let (_, rest) ← char ':' rest
    let ((tail, _), rest) := readGroups (8 - (head.length + 1)) 0 rest
    return (value 65536 (head ++ List.replicate (8 - tail.length - head.length) 0 ++ tail), rest)

def readIpAddr : Reader IpAddr := fun text =>
  match readIpv4Addr text with
  | some (addr, rest) => some (v4 (BitVec.ofNat 32 addr), rest)
  | none => (readIpv6Addr text).map fun (addr, rest) => (v6 (BitVec.ofNat 128 addr), rest)

def parse (text : String) : Option IpAddr := Reader.parseWith readIpAddr text

example : parse "10.0.0.7" = some (v4 0x0A000007) := by decide
example : parse "fe80::1%0" = none := by decide

/-! ## Dotted quads -/

theorem stops_dot (rest : List Char) : Stops 10 ('.' :: rest) := Reader.stops_cons rest (by decide)

theorem readOctet_toDigits {n : Nat} {rest : List Char} (hn : n < 256) (hrest : Stops 10 rest) :
    readOctet (Nat.toDigits 10 n ++ rest) = some (n, rest) :=
  Reader.number_toDigits false (by decide) (by decide) (by decide) (by decide) hn hrest

theorem toList_displayV4 (addr : Nat) :
    (displayV4 addr).toList =
      Nat.toDigits 10 (addr >>> 24 % 256) ++ '.' :: (Nat.toDigits 10 (addr >>> 16 % 256) ++
        '.' :: (Nat.toDigits 10 (addr >>> 8 % 256) ++ '.' :: Nat.toDigits 10 (addr >>> 0 % 256))) := by
  simp [displayV4, Nat.toList_repr]

theorem readIpv4Addr_displayV4 {addr : Nat} {rest : List Char} (haddr : addr < 4294967296) (hrest : Stops 10 rest) :
    readIpv4Addr ((displayV4 addr).toList ++ rest) = some (addr, rest) := by
  have hlt : ∀ octet, octet % 256 < 256 := fun octet => Nat.mod_lt _ (by decide)
  have hvalue : value 256 [addr >>> 24 % 256, addr >>> 16 % 256, addr >>> 8 % 256, addr >>> 0 % 256] = addr := by
    simp only [value, List.foldl_cons, List.foldl_nil, Nat.shiftRight_eq_div_pow]
    omega
  rw [toList_displayV4]
  simp only [readIpv4Addr, List.append_assoc, List.cons_append, Reader.separator_zero, Reader.separator_succ,
    readOctet_toDigits (hlt _) (stops_dot _), readOctet_toDigits (hlt _) hrest, Reader.char_cons,
    Option.bind_eq_bind, Option.bind_some, hvalue]
  rfl

theorem readIpv4Addr_of_dotless {text : List Char} (h : '.' ∉ text) : readIpv4Addr text = none := by
  unfold readIpv4Addr
  cases hfirst : readOctet text with
  | none => simp [hfirst]
  | some p =>
    have hsuffix : p.2 <:+ text := Reader.number_rest_suffix hfirst
    have hdotless : '.' ∉ p.2 := fun hmem => h (hsuffix.subset hmem)
    simp [hfirst, Reader.char_eq_none hdotless]

theorem readIpv4Addr_cons (c : Char) (text : List Char) (hc : Reader.toDigit 10 c = none) :
    readIpv4Addr (c :: text) = none := by
  simp [readIpv4Addr, readOctet, Reader.number_of_stops (Reader.stops_cons text hc)]

/-! ## Segments -/

/-- The segments as they stand in a text, from the `i`-th on. -/
def segmentsText : Nat → List Nat → List Char
  | _, [] => []
  | 0, segment :: segments => Nat.toDigits 16 segment ++ segmentsText 1 segments
  | i + 1, segment :: segments => ':' :: (Nat.toDigits 16 segment ++ segmentsText (i + 2) segments)

theorem segmentsText_succ (i : Nat) (segments : List Nat) :
    segmentsText (i + 1) segments = segmentsText 1 segments := by
  induction segments generalizing i with
  | nil => rfl
  | cons segment segments ih => simp only [segmentsText, ih (i + 1), ih 1]

theorem toList_displaySegments (segments : List Nat) :
    (displaySegments segments).toList = segmentsText 0 segments := by
  induction segments with
  | nil => rfl
  | cons first segments ih =>
    cases segments with
    | nil => simp [displaySegments, segmentsText]
    | cons second segments =>
      have hcons : displaySegments (first :: second :: segments) =
          String.ofList (Nat.toDigits 16 first) ++ ":" ++ displaySegments (second :: segments) :=
        String.intercalate_cons_cons
      rw [hcons]
      simp [ih, segmentsText, segmentsText_succ 1]

/-- Nothing more can be read: the end of the text, or a second colon. -/
def Ends (rest : List Char) : Prop := rest = [] ∨ ∃ more, rest = ':' :: ':' :: more

theorem stops_colon (rest : List Char) : Stops 16 (':' :: rest) := Reader.stops_cons rest (by decide)

theorem Ends.stops {rest : List Char} (h : Ends rest) : Stops 16 rest := by
  rcases h with rfl | ⟨more, rfl⟩
  · exact Reader.stops_nil
  · exact stops_colon _

theorem stops_segmentsText {i : Nat} {segments : List Nat} {rest : List Char} (h : Ends rest) :
    Stops 16 (segmentsText (i + 1) segments ++ rest) := by
  cases segments with
  | nil => exact h.stops
  | cons segment segments => exact stops_colon _

theorem dot_not_mem_toDigits (n : Nat) : '.' ∉ Nat.toDigits 16 n := by
  obtain ⟨ds, htext, hlt, -, -⟩ := @Reader.toDigits_eq_map 16 (by decide) n
  have hdigit : ∀ d < 16, d.digitChar ≠ '.' := by decide
  rw [htext, List.mem_map]
  intro ⟨d, hd, hdot⟩
  exact hdigit d (hlt d hd) hdot

theorem dot_not_mem_segmentsText : ∀ (segments : List Nat) (i : Nat), '.' ∉ segmentsText i segments
  | [], _ => by simp [segmentsText]
  | segment :: segments, 0 => by
    simp [segmentsText, dot_not_mem_toDigits, dot_not_mem_segmentsText segments 1]
  | segment :: segments, i + 1 => by
    simp [segmentsText, dot_not_mem_toDigits, dot_not_mem_segmentsText segments (i + 2)]

theorem separator_readIpv4Addr_of_dotless {text : List Char} (h : '.' ∉ text) (i : Nat) :
    separator ':' i readIpv4Addr text = none := by
  cases i with
  | zero => exact readIpv4Addr_of_dotless h
  | succ i =>
    cases text with
    | nil => rfl
    | cons c text =>
      have : '.' ∉ text := fun hmem => h (List.mem_cons_of_mem c hmem)
      by_cases hc : c = ':'
      · subst hc
        simp [readIpv4Addr_of_dotless this]
      · simp [Reader.char_cons_of_ne text hc]

theorem readGroup_toDigits {n : Nat} {rest : List Char} (hn : n < 65536) (hrest : Stops 16 rest) :
    number 16 4 65536 true (Nat.toDigits 16 n ++ rest) = some (n, rest) :=
  Reader.number_toDigits true (by decide) (by decide) (by decide) (by decide) hn hrest

theorem readGroup_of_ends {rest : List Char} (h : Ends rest) (i : Nat) :
    separator ':' i (number 16 4 65536 true) rest = none := by
  cases i with
  | zero => exact Reader.number_of_stops h.stops _ _ _
  | succ i =>
    rcases h with rfl | ⟨more, rfl⟩
    · rfl
    · simp [Reader.number_of_stops (stops_colon more)]

/-- The groups are read up to where nothing more can be. -/
theorem readGroups_segmentsText {rest : List Char} (hends : Ends rest) (hdotless : '.' ∉ rest) :
    ∀ (segments : List Nat) (limit i : Nat), segments.length ≤ limit → (∀ segment ∈ segments, segment < 65536) →
      readGroups limit i (segmentsText i segments ++ rest) = ((segments, false), rest) := by
  intro segments
  induction segments with
  | nil =>
    intro limit i _ _
    cases limit with
    | zero => rfl
    | succ limit =>
      simp [segmentsText, readGroups, separator_readIpv4Addr_of_dotless hdotless, readGroup_of_ends hends]
  | cons segment segments ih =>
    intro limit i hlength hsegments
    cases limit with
    | zero => simp at hlength
    | succ limit =>
      have hsegment : segment < 65536 := hsegments segment (by simp)
      have htail : ∀ s ∈ segments, s < 65536 := fun s hs => hsegments s (by simp [hs])
      have hquad : separator ':' i readIpv4Addr (segmentsText i (segment :: segments) ++ rest) = none := by
        apply separator_readIpv4Addr_of_dotless
        simp [dot_not_mem_segmentsText, hdotless]
      have hgroup : separator ':' i (number 16 4 65536 true) (segmentsText i (segment :: segments) ++ rest) =
          some (segment, segmentsText (i + 1) segments ++ rest) := by
        cases i with
        | zero => simp [segmentsText, readGroup_toDigits hsegment (stops_segmentsText hends)]
        | succ i => simp [segmentsText, readGroup_toDigits hsegment (stops_segmentsText hends)]
      have hrest := ih limit (i + 1) (by simpa using hlength) htail
      unfold readGroups
      simp only [hquad, ite_self, hgroup, hrest]

/-! ## The longest run of zeros -/

/-- The segments are zeros from `run.1` on, `run.2` of them. -/
def ZeroRun (segments : List Nat) (run : Nat × Nat) : Prop :=
  segments = segments.take run.1 ++ List.replicate run.2 0 ++ segments.drop (run.1 + run.2)

theorem zeroRun_takeWhile (segments : List Nat) (start : Nat) :
    ZeroRun segments (start, ((segments.drop start).takeWhile fun segment => segment == 0).length) := by
  generalize hzeros : (segments.drop start).takeWhile (fun segment => segment == 0) = zeros
  have hreplicate : zeros = List.replicate zeros.length 0 := by
    refine List.eq_replicate_of_mem fun segment hmem => ?_
    rw [← hzeros] at hmem
    simpa using List.all_eq_true.mp List.all_takeWhile segment hmem
  have hdrop : segments.drop start = zeros ++ segments.drop (start + zeros.length) := by
    have := List.prefix_iff_eq_append.mp
      (List.takeWhile_prefix (fun segment => segment == 0) (l := segments.drop start))
    rw [hzeros, List.drop_drop] at this
    exact this.symm
  unfold ZeroRun
  calc segments = segments.take start ++ segments.drop start := (List.take_append_drop start segments).symm
    _ = segments.take start ++ (zeros ++ segments.drop (start + zeros.length)) := by rw [← hdrop]
    _ = segments.take start ++ List.replicate zeros.length 0 ++ segments.drop (start + zeros.length) := by
      rw [← hreplicate, List.append_assoc]

theorem zeroRun_spec (segments : List Nat) : ZeroRun segments (zeroRun segments) := by
  unfold zeroRun
  generalize hruns : ((List.range segments.length).map fun start =>
    (start, ((segments.drop start).takeWhile fun segment => segment == 0).length)) = runs
  have hall : ∀ run ∈ runs, ZeroRun segments run := by
    intro run hmem
    rw [← hruns] at hmem
    obtain ⟨start, -, rfl⟩ := List.mem_map.mp hmem
    exact zeroRun_takeWhile segments start
  have hfold : ∀ longest, ZeroRun segments longest →
      ZeroRun segments (runs.foldl (fun longest run => if run.2 > longest.2 then run else longest) longest) := by
    clear hruns
    induction runs with
    | nil => intro longest h; exact h
    | cons run runs ih =>
      intro longest h
      refine ih (fun r hr => hall r (by simp [hr])) _ ?_
      dsimp only
      split
      · exact hall run (by simp)
      · exact h
  exact hfold (0, 0) (by simp [ZeroRun])

/-! ## IPv6 addresses -/

def segments (addr : Nat) : List Nat := [112, 96, 80, 64, 48, 32, 16, 0].map fun shift => addr >>> shift % 65536

theorem value_segments {addr : Nat} (h : addr < 2 ^ 128) : value 65536 (segments addr) = addr := by
  have hstep : ∀ low high, low + 16 = high → addr >>> high * 65536 + addr >>> low % 65536 = addr >>> low := by
    intro low high hhigh
    rw [← hhigh, Nat.shiftRight_add, Nat.shiftRight_eq_div_pow _ 16]
    omega
  have htop : addr >>> 112 % 65536 = addr >>> 112 := by
    apply Nat.mod_eq_of_lt
    rw [Nat.shiftRight_eq_div_pow]
    omega
  have hvalue : ∀ a b c d e f g h : Nat, value 65536 [a, b, c, d, e, f, g, h] =
      ((((((a * 65536 + b) * 65536 + c) * 65536 + d) * 65536 + e) * 65536 + f) * 65536 + g) * 65536 + h := by
    intro a b c d e f g h
    simp [value]
  have hsegments : segments addr =
      [addr >>> 112 % 65536, addr >>> 96 % 65536, addr >>> 80 % 65536, addr >>> 64 % 65536, addr >>> 48 % 65536,
        addr >>> 32 % 65536, addr >>> 16 % 65536, addr >>> 0 % 65536] := rfl
  rw [hsegments, hvalue, htop, hstep 96 112 rfl, hstep 80 96 rfl, hstep 64 80 rfl, hstep 48 64 rfl, hstep 32 48 rfl,
    hstep 16 32 rfl, hstep 0 16 rfl, Nat.shiftRight_zero]

theorem segments_lt {addr segment : Nat} (h : segment ∈ segments addr) : segment < 65536 := by
  obtain ⟨shift, -, rfl⟩ := List.mem_map.mp h
  exact Nat.mod_lt _ (by decide)

theorem displayV6_eq (addr : Nat) :
    displayV6 addr =
      if (segments addr).take 6 = [0, 0, 0, 0, 0, 65535] then "::ffff:" ++ displayV4 (addr % 4294967296)
      else
        let (start, len) := zeroRun (segments addr)
        if len > 1 then displaySegments ((segments addr).take start) ++ "::" ++
          displaySegments ((segments addr).drop (start + len))
        else displaySegments (segments addr) := rfl

/-- All eight segments. -/
theorem readIpv6Addr_segmentsText {ss : List Nat} (hlength : ss.length = 8) (hss : ∀ s ∈ ss, s < 65536) :
    readIpv6Addr (segmentsText 0 ss) = some (value 65536 ss, []) := by
  have hread := readGroups_segmentsText (.inl rfl) (by simp) ss 8 0 (by omega) hss
  rw [List.append_nil] at hread
  simp [readIpv6Addr, hread, hlength]

/-- A run of more than one zero left out. -/
theorem readIpv6Addr_compressed {head tail : List Nat} (hhead : ∀ s ∈ head, s < 65536)
    (htail : ∀ s ∈ tail, s < 65536) (hlength : head.length + tail.length < 8) :
    readIpv6Addr (segmentsText 0 head ++ ':' :: ':' :: segmentsText 0 tail) =
      some (value 65536 (head ++ List.replicate (8 - tail.length - head.length) 0 ++ tail), []) := by
  have hdotless : '.' ∉ ':' :: ':' :: segmentsText 0 tail := by simp [dot_not_mem_segmentsText]
  have hreadHead := readGroups_segmentsText (.inr ⟨_, rfl⟩) hdotless head 8 0 (by omega) hhead
  have hreadTail := readGroups_segmentsText (.inl rfl) (by simp) tail (8 - (head.length + 1)) 0 (by omega) htail
  rw [List.append_nil] at hreadTail
  have hne : head.length ≠ 8 := by omega
  simp only [readIpv6Addr, hreadHead, hne, if_false, Bool.false_eq_true, Reader.char_cons, hreadTail,
    Option.bind_eq_bind, Option.bind_some]
  rfl

/-- A dotted quad after `::ffff:`. -/
theorem readIpv6Addr_mapped {addr : Nat} (h : addr < 4294967296) :
    readIpv6Addr ("::ffff:".toList ++ (displayV4 addr).toList) =
      some (value 65536 [0, 0, 0, 0, 0, 65535, addr / 65536, addr % 65536], []) := by
  have hquad : readIpv4Addr (displayV4 addr).toList = some (addr, []) := by
    simpa using readIpv4Addr_displayV4 h Reader.stops_nil
  have hhead : ∀ text, readGroups 8 0 (':' :: text) = (([], false), ':' :: text) := by
    intro text
    simp [readGroups, readIpv4Addr_cons ':' text (by decide), Reader.number_of_stops (stops_colon text)]
  have hffff : number 16 4 65536 true ('f' :: 'f' :: 'f' :: 'f' :: ':' :: (displayV4 addr).toList) =
      some (65535, ':' :: (displayV4 addr).toList) :=
    readGroup_toDigits (n := 65535) (by decide) (stops_colon _)
  have htail : readGroups 7 0 ('f' :: 'f' :: 'f' :: 'f' :: ':' :: (displayV4 addr).toList) =
      (([65535, addr / 65536, addr % 65536], true), []) := by
    simp [readGroups, readIpv4Addr_cons 'f' _ (by decide), hffff, hquad]
  have htext : "::ffff:".toList = [':', ':', 'f', 'f', 'f', 'f', ':'] := rfl
  simp only [readIpv6Addr, htext, List.cons_append, List.nil_append, hhead, Reader.char_cons, List.length_nil, htail,
    Option.bind_eq_bind, Option.bind_some]
  rfl

theorem readIpv6Addr_displayV6 {addr : Nat} (h : addr < 2 ^ 128) :
    readIpv6Addr (displayV6 addr).toList = some (addr, []) := by
  have hlength : (segments addr).length = 8 := rfl
  have hvalue := value_segments h
  rw [displayV6_eq]
  split
  · next hmapped =>
    have hlow : (segments addr).drop 6 = [addr % 4294967296 / 65536, addr % 4294967296 % 65536] := by
      simp only [segments, List.map_cons, List.map_nil, List.drop_succ_cons, List.drop_zero,
        Nat.shiftRight_eq_div_pow]
      congr 1
      · omega
      · congr 1
        omega
    have hsegments : segments addr =
        [0, 0, 0, 0, 0, 65535, addr % 4294967296 / 65536, addr % 4294967296 % 65536] := by
      rw [← List.take_append_drop 6 (segments addr), hmapped, hlow]
      rfl
    rw [String.toList_append, readIpv6Addr_mapped (Nat.mod_lt _ (by decide)), ← hsegments, hvalue]
  · generalize hrun : zeroRun (segments addr) = run
    obtain ⟨start, len⟩ := run
    have hzero : ZeroRun (segments addr) (start, len) := hrun ▸ zeroRun_spec (segments addr)
    dsimp only
    split
    · next hlen =>
      have hsum : ((segments addr).take start).length + len + ((segments addr).drop (start + len)).length = 8 := by
        have := congrArg List.length hzero
        simp only [List.length_append, List.length_replicate, hlength] at this
        exact this.symm
      have hskipped : 8 - ((segments addr).drop (start + len)).length - ((segments addr).take start).length =
          len := by
        omega
      have hcolons : "::".toList = [':', ':'] := rfl
      rw [String.toList_append, String.toList_append, toList_displaySegments, toList_displaySegments, hcolons,
        List.append_assoc, List.cons_append, List.cons_append, List.nil_append,
        readIpv6Addr_compressed (fun s hs => segments_lt (List.mem_of_mem_take hs))
          (fun s hs => segments_lt (List.mem_of_mem_drop hs)) (by omega), hskipped, ← hzero, hvalue]
    · rw [toList_displaySegments, readIpv6Addr_segmentsText hlength (fun s => segments_lt), hvalue]

theorem readIpv4Addr_displayV6 (addr : Nat) : readIpv4Addr (displayV6 addr).toList = none := by
  have hcolons : "::".toList = [':', ':'] := rfl
  rw [displayV6_eq]
  split
  · have hfirst : "::ffff:".toList = ':' :: ":ffff:".toList := rfl
    rw [String.toList_append, hfirst, List.cons_append, readIpv4Addr_cons ':' _ (by decide)]
  · apply readIpv4Addr_of_dotless
    generalize zeroRun (segments addr) = run
    obtain ⟨start, len⟩ := run
    dsimp only
    split
    · simp [toList_displaySegments, dot_not_mem_segmentsText, hcolons]
    · simp [toList_displaySegments, dot_not_mem_segmentsText]

/-- **The text of an address is read back as the address.** -/
theorem parse_display (ip : IpAddr) : parse ip.display = some ip := by
  unfold parse Reader.parseWith readIpAddr
  cases ip with
  | v4 addr =>
    have := readIpv4Addr_displayV4 addr.isLt Reader.stops_nil
    rw [List.append_nil] at this
    simp [display, this]
  | v6 addr =>
    simp [display, readIpv4Addr_displayV6, readIpv6Addr_displayV6 addr.isLt]

end IpAddr
end Netvisor
