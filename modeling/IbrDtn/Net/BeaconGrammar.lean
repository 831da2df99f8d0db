import IbrDtn.Data.SdnvCodec
import IbrDtn.Data.ShortReads
import IbrDtn.Library.Grammar
import IbrDtn.Net.DiscoveryRoundTrip

/-!
# The grammar of beacons

`operator>>` of `daemon/src/net/DiscoveryAnnouncement.cpp` never looks at the state of its stream.
This file writes down which bytes spell a beacon of one of the two versions, and shows that the
reader obeys this grammar: it reads every beacon that is there, it turns down a number of more than
64 bits in the place of a number, and it slips on every beginning of a beacon.

A beacon of the third version is the one that another daemon sends.  Its reader never turns anything
down, so that it is described by its language.

## Main definitions

* `Announced` : what a beacon announces.
* `Announced.version00`, `Announced.version01` : the grammars of the two versions.
* `Announced.Ipdiscovery` : the beacons of the other daemon.

## Main results

* `Announced.obeys_readVersion00`, `Announced.obeys_readVersion01` : the readers obey them.
* `Announced.recognises_readIpdiscovery` : what is read of the third version.
-/

namespace IbrDtn

open Loader (ofParser ofParser_bind Lax SinksAtEnd Sinks Slips)

/-- `catch (const dtn::InvalidDataException&)` and `catch (const ibrcommon::IOException&)` of the
loop in `IPNDAgent::componentRun` take the exception. -/
def IPNDAgent.catches : Exn → Bool
  | .ioException _ => true
  | e => e.isInvalidData

/-- What a program does with up to `n` bytes of a datagram. -/
abbrev IPNDAgent.Obeys {α : Type} (p : Parser Exn α) (g : Grammar α) (n : ℕ) : Prop :=
  Grammar.Obeys (fun e => IPNDAgent.catches e = false) (fun e => IPNDAgent.catches e = true) p g n

open IPNDAgent (Obeys catches)

theorem Exn.Escapes.catches_eq {e : Exn} (h : e.Escapes) : catches e = false := by
  cases e <;> first | rfl | cases h

/-! ### Numbers and strings -/

namespace SDNV

/-- The bytes of a number. One of ten bytes that has more than 64 bits is refused. -/
def grammar : Grammar UInt64 where
  spelled bs v := ∃ n : Wire, n.bytes = bs ∧ n.value = v
  refused bs := Terminated bs ∧ bs.length = maxLength ∧ bs.head? ≠ some 0x81

theorem decode_of_refused {bs : Bytes} (h : grammar.refused bs) :
    decode bs = .error (.invalidData "ERROR(SDNV): overflow value in sdnv") := by
  obtain ⟨hends, hlen, hhead⟩ := h
  obtain ⟨val, hloop, -⟩ := decodeLoop_of_terminated hends
    (show (0 : UInt64).toNat = 0 % 2 ^ 64 from rfl) 0
  rw [Nat.zero_add] at hloop
  rw [decode, hloop]
  exact if_pos (.inr ⟨hlen, hhead⟩)

theorem spelled_or_refused {bs : Bytes} (hends : Terminated bs) (hlen : bs.length ≤ maxLength) :
    (∃ v, grammar.spelled bs v) ∨ grammar.refused bs := by
  cases hdecode : decode bs with
  | ok v => exact .inl ⟨v, ⟨bs, v, hends, hlen, hdecode⟩, rfl, rfl⟩
  | error e =>
      refine .inr ⟨hends, ?_⟩
      by_contra hfits
      obtain ⟨val, hloop, -⟩ := decodeLoop_of_terminated hends
        (show (0 : UInt64).toNat = 0 % 2 ^ 64 from rfl) 0
      rw [Nat.zero_add] at hloop
      have hvalid : ¬ (bs.length > maxLength ∨ bs.length = maxLength ∧ bs.head? ≠ some 0x81) :=
        not_or.2 ⟨Nat.not_lt.2 hlen, hfits⟩
      rw [decode, hloop] at hdecode
      dsimp only at hdecode
      rw [if_neg hvalid] at hdecode
      cases hdecode

theorem consumes_grammar : grammar.Consumes where
  spelled := by
    rintro bs v ⟨n, rfl, -⟩
    exact n.ne_nil
  refused := by
    rintro bs ⟨-, hlen, -⟩ rfl
    cases hlen

/-- A number that does not end within the buffer. -/
theorem sinks_read {bs : Bytes} (h : ¬ ∃ i < maxLength, ∃ b ∈ bs[i]?, b &&& 0x80 = 0) :
    Sinks (fun e => catches e = false) (ofParser read : Loader Exn Unit UInt64) () (.short bs) := by
  have hbuffer : Sinks (fun e => catches e = false)
      (ofParser (readBuffer maxLength) : Loader Exn Unit Bytes) () (.short bs) := by
    refine ⟨List.replicate maxLength 0x80, fun st' =>
      ⟨.undefined "write beyond the buffer of an SDNV", ?_, rfl⟩⟩
    exact run_readBuffer_of_forall maxLength (s := .short bs)
      (fun _ i hi b hb hlow => h ⟨i, hi, b, hb, hlow⟩) st'
  rw [read, ofParser_bind]
  exact hbuffer.bind _

theorem obeys_read (n : ℕ) : Obeys read grammar n where
  lax := (sinksAtEnd_read.mono fun e he => he.catches_eq).lax
  productive := ⟨_, 0, .shortest 0, rfl, rfl⟩
  reads := by
    rintro bs v ⟨n, rfl, rfl⟩ -
    exact n.reads
  refuses := by
    intro bs h _
    refine ⟨.invalidData "ERROR(SDNV): overflow value in sdnv", rfl,
      (reads_readBuffer h.1 h.2.1.le).then_throws ?_⟩
    rw [decode_of_refused h]
    exact Parser.throws_throw _
  cuts := by
    rintro bs ext v ⟨n, hbytes, rfl⟩ hne -
    have hlt : bs.length < n.bytes.length := by
      rw [hbytes, List.length_append]
      exact Nat.lt_add_of_pos_right (List.length_pos_iff.2 hne)
    have hsinks := cutsSink_read n () bs.length hlt
    rw [hbytes, List.take_left] at hsinks
    exact .sinks (hsinks.mono fun e he => he.catches_eq)
  total bs _ := by
    by_cases h : ∃ i < maxLength, ∃ b ∈ bs[i]?, b &&& 0x80 = 0
    · obtain ⟨number, rest, rfl, hends, hlen⟩ := exists_terminated h
      rcases spelled_or_refused hends hlen with ⟨v, hv⟩ | hrefused
      · exact .inl ⟨number, v, rest, hv, rfl⟩
      · exact .inr (.inl ⟨number, rest, hrefused, rfl⟩)
    · exact .inr (.inr (.inl (sinks_read h)))

end SDNV

variable {r : Resources} {n : ℕ}

/-- An array that is larger than the stack is larger than what is read. -/
theorem obeys_readArray (hn : n ≤ r.stack) (k : ℕ) :
    Obeys (readArray r k) (Grammar.bytes k) n := by
  rw [readArray]
  split_ifs with hk
  · exact Grammar.obeys_readBytes k n
  · refine Grammar.obeys_throw rfl ⟨List.replicate k 0, _, rfl, List.length_replicate⟩ ?_
      fun bs h => h.elim
    rintro bs cs ⟨rfl, rfl⟩
    omega

namespace BundleString

/-- The bytes of a string. One with a length that no `std::streamsize` has is empty. -/
def grammar : Grammar Bytes := do
  let length ← SDNV.grammar
  if 0 < length.toNat ∧ length.toNat < 2 ^ 63 then Grammar.bytes length.toNat else pure []

theorem consumes_grammar : grammar.Consumes := SDNV.consumes_grammar.bind _

theorem obeys_readWithin (hn : n ≤ r.stack) : Obeys (readWithin r) grammar n := by
  refine (SDNV.obeys_read n).bind fun v => ?_
  split_ifs
  · exact obeys_readArray hn v.toNat
  · exact Grammar.obeys_pure [] n

end BundleString

/-! ### Services -/

namespace DiscoveryService

/-- The bytes of a service. -/
def grammar : Grammar DiscoveryService := do
  let name ← BundleString.grammar
  let parameters ← BundleString.grammar
  pure ⟨name, parameters⟩

theorem consumes_grammar : grammar.Consumes := BundleString.consumes_grammar.bind _

theorem obeys_read (hn : n ≤ r.stack) : Obeys (read r) grammar n :=
  (BundleString.obeys_readWithin hn).bind fun _ => (BundleString.obeys_readWithin hn).bind
    fun _ => Grammar.obeys_pure _ n

/-- The shortest service. -/
theorem spelled_empty : grammar.spelled [0, 0] ⟨[], []⟩ := by
  have hzero : BundleString.grammar.spelled [0] [] :=
    ⟨[0], 0, [], ⟨.shortest 0, rfl, rfl⟩, ⟨rfl, rfl⟩, rfl⟩
  exact ⟨[0], [], [0], hzero, ⟨[0], [], [], hzero, ⟨rfl, rfl⟩, rfl⟩, rfl⟩

theorem sinks_read_nil (r : Resources) :
    Sinks (fun e => catches e = false) (ofParser (read r) : Loader Exn Unit _) () (.short []) := by
  have hnumber : Sinks (fun e => catches e = false) (ofParser SDNV.read : Loader Exn Unit _) ()
      (.short []) := SDNV.sinks_read (by simp)
  rw [read, ofParser_bind, BundleString.readWithin, ofParser_bind]
  exact (hnumber.bind _).bind _

theorem sinksAtEnd_read (r : Resources) :
    SinksAtEnd (fun e => catches e = false) (ofParser (read r) : Loader Exn Unit _) := by
  rw [read, ofParser_bind, BundleString.readWithin, ofParser_bind]
  exact ((SDNV.sinksAtEnd_read.mono fun e he => he.catches_eq).bind _).bind _

section ReadWhile

variable {σ τ : Type} {again : σ → Bool} {step : σ → DiscoveryService → σ}

theorem readWhile_of_false {x : σ} (h : again x = false) (room : ℕ) :
    readWhile again step r room x = pure [] := by
  have hnot : ¬ again x = true := by rw [h]; exact Bool.false_ne_true
  cases room <;> exact if_neg hnot

theorem sinks_readWhile_nil {x : σ} (h : again x = true) (room : ℕ) :
    Sinks (fun e => catches e = false)
      (ofParser (readWhile again step r room x) : Loader Exn Unit _) () (.short []) := by
  cases room with
  | zero =>
      rw [readWhile, if_pos h]
      exact ⟨[], fun _ => ⟨_, rfl, rfl⟩⟩
  | succ room =>
      rw [readWhile, if_pos h, ofParser_bind]
      exact (sinks_read_nil r).bind _

theorem lax_readWhile (room : ℕ) (x : σ) :
    Lax (fun e => catches e = false)
      (ofParser (readWhile again step r room x) : Loader Exn Unit _) := by
  cases h : again x with
  | false =>
      rw [readWhile_of_false h]
      exact Loader.lax_pure []
  | true =>
      cases room with
      | zero =>
          rw [readWhile, if_pos h]
          exact fun o s _ => .sinks ⟨[], fun _ => ⟨_, rfl, rfl⟩⟩
      | succ room =>
          rw [readWhile, if_pos h, ofParser_bind]
          exact ((sinksAtEnd_read r).bind _).lax

variable {again' : τ → Bool} {step' : τ → DiscoveryService → τ}

/-- **A loop over services** obeys the grammar of a loop that runs alike. Every service has bytes,
so that there is room for as many of them as there are bytes. -/
theorem obeys_readWhile (Sim : ℕ → σ → τ → Prop)
    (hproductive : ∀ y, ∃ bs ss, (grammar.repeatWhile again' step' y).spelled bs ss)
    (hagain : ∀ n x y, Sim n x y → again x = again' y)
    (hstep : ∀ n x y s, Sim (n + 1) x y → Sim n (step x s) (step' y s)) (hn : n ≤ r.stack)
    {room : ℕ} (hroom : n ≤ room) {x : σ} {y : τ} (hsim : Sim n x y) :
    Obeys (readWhile again step r room x) (grammar.repeatWhile again' step' y) n := by
  induction n generalizing room x y with
  | zero =>
      cases h : again x with
      | false =>
          rw [readWhile_of_false h, Grammar.repeatWhile_of_false ((hagain _ _ _ hsim).symm.trans h)]
          exact Grammar.obeys_pure [] 0
      | true =>
          refine Grammar.obeys_zero (lax_readWhile room x) (hproductive y)
            (sinks_readWhile_nil h room) ?_
          rw [Grammar.repeatWhile_of_true ((hagain _ _ _ hsim).symm.trans h)]
          exact consumes_grammar.bind _
  | succ n ih =>
      cases h : again x with
      | false =>
          rw [readWhile_of_false h, Grammar.repeatWhile_of_false ((hagain _ _ _ hsim).symm.trans h)]
          exact Grammar.obeys_pure [] (n + 1)
      | true =>
          obtain ⟨room, rfl⟩ := Nat.exists_eq_add_of_le' hroom
          rw [Grammar.repeatWhile_of_true ((hagain _ _ _ hsim).symm.trans h), ← Nat.add_assoc,
            readWhile, if_pos h]
          refine (obeys_read hn).bind_of_le (m := n) (fun s => ?_) fun bs s hs => ?_
          · exact (ih (Nat.le_of_succ_le hn) (Nat.le_add_left n room) (hstep n x y s hsim)).bind
              fun ss => Grammar.obeys_pure _ n
          · have hpos := List.length_pos_iff.2 (consumes_grammar.spelled bs s hs)
            omega

end ReadWhile

end DiscoveryService

/-! ### The first two versions -/

/-- What a beacon announces: the EID, or that of nobody, and the services, if there is a list of
them. -/
structure Announced where
  flags : UInt8
  eid : EID
  services : Option (List DiscoveryService)

namespace Announced

open DiscoveryAnnouncement

/-- What is announced, in an announcement with services of its own. -/
def fill (a : DiscoveryAnnouncement) (b : Announced) : DiscoveryAnnouncement :=
  { a with flags := b.flags, canonicalEid := b.eid, services := b.services.getD a.services }

/-- The first version behind its first byte. Services follow until the length is used up, where a
string counts with its length in the shortest form. -/
def version00 : Grammar Announced := do
  let flags ← Grammar.byte
  if flags = beaconShort then pure ⟨flags, EID.none, none⟩
  else do
    let beaconLen ← SDNV.grammar
    let eid ← BundleString.grammar
    let remain := beaconLen.toUInt32.toInt32 - Int32.ofNat (BundleString.getLength eid)
    let services ← DiscoveryService.grammar.repeatWhile remains subtract remain
    pure ⟨flags, EID.ofString eid, some services⟩

/-- The services of the second version: as many as a number says. -/
def serviceBlock (flags : UInt8) (eid : EID) : Grammar Announced :=
  if flags &&& beaconServiceBlock ≠ 0 then do
    let count ← SDNV.grammar
    let services ← DiscoveryService.grammar.repeatWhile (fun i => decide (i < count.toNat))
      (fun i _ => i + 1) 0
    pure ⟨flags, eid, some services⟩
  else pure ⟨flags, eid, none⟩

/-- The second version behind its first byte. -/
def version01 : Grammar Announced := do
  let flags ← Grammar.byte
  let _ ← Grammar.byte
  let _ ← Grammar.byte
  if flags &&& beaconContainsEid ≠ 0 then do
    let eid ← BundleString.grammar
    serviceBlock flags (EID.ofString eid)
  else serviceBlock flags EID.none

/-- A service of two bytes at a time uses every length up. -/
theorem productive_remains (remain : Int32) :
    ∃ bs ss, (DiscoveryService.grammar.repeatWhile remains subtract remain).spelled bs ss := by
  induction hk : remain.toInt.toNat using Nat.strong_induction_on generalizing remain with
  | _ k ih =>
      cases h : remains remain with
      | false => exact ⟨[], [], .done h⟩
      | true =>
          have hpos : 0 < remain.toInt := by
            rw [remains, decide_eq_true_eq, Int32.lt_iff_toInt_lt] at h
            exact h
          have hlen : Int32.ofNat (DiscoveryService.getLength ⟨[], []⟩) = 2 := rfl
          have hlt := remain.toInt_lt
          have hnext : (subtract remain ⟨[], []⟩).toInt = remain.toInt - 2 := by
            rw [subtract, hlen, Int32.toInt_sub]
            change (remain.toInt - 2).bmod (2 ^ 32) = _
            exact Int.bmod_eq_of_le (by omega) (by omega)
          obtain ⟨bs, ss, hss⟩ := ih (subtract remain ⟨[], []⟩).toInt.toNat (by omega) _ rfl
          exact ⟨_, _, .more h DiscoveryService.spelled_empty hss⟩

theorem productive_counts (n i : ℕ) : ∃ bs ss,
    (DiscoveryService.grammar.repeatWhile (fun i => decide (i < n)) (fun i _ => i + 1) i).spelled
      bs ss := by
  induction hk : n - i generalizing i with
  | zero => exact ⟨[], [], .done (decide_eq_false (by omega))⟩
  | succ k ih =>
      obtain ⟨bs, ss, hss⟩ := ih (i + 1) (by omega)
      exact ⟨_, _, .more (decide_eq_true (by omega)) DiscoveryService.spelled_empty hss⟩

variable {a : DiscoveryAnnouncement}

/-- **The first version.** -/
theorem obeys_readVersion00 (hstack : n ≤ r.stack) (hheap : n ≤ r.heap) :
    Obeys (readVersion00 r a) (fill a <$> version00) n := by
  rw [version00, map_bind]
  refine (Grammar.obeys_getByte _ n).bind fun flags => ?_
  dsimp only
  split_ifs with hshort
  · rw [map_pure]
    exact Grammar.obeys_pure _ n
  · simp only [map_bind, map_pure]
    refine (SDNV.obeys_read n).bind fun beaconLen =>
      (BundleString.obeys_readWithin hstack).bind fun eid =>
        Grammar.Obeys.bind (DiscoveryService.obeys_readWhile (fun _ x y => x = y)
          productive_remains ?_ ?_ hstack hheap rfl) fun services => Grammar.obeys_pure _ n
    · rintro n x y rfl
      rfl
    · rintro n x y s rfl
      rfl

theorem obeys_readServiceBlock (hstack : n ≤ r.stack) (hheap : n ≤ r.heap) (hn : n < 2 ^ 32) :
    Obeys (readServiceBlock r a) (fill a <$> serviceBlock a.flags a.canonicalEid) n := by
  rw [readServiceBlock, serviceBlock]
  split_ifs with hservices
  · simp only [map_bind, map_pure]
    refine (SDNV.obeys_read n).bind fun count => Grammar.Obeys.bind
      (DiscoveryService.obeys_readWhile (fun n (x : UInt32) y => x.toNat = y ∧ y + n < 2 ^ 32)
        (productive_counts count.toNat) ?_ ?_ hstack hheap ⟨rfl, by omega⟩)
        fun services => Grammar.obeys_pure _ n
    · rintro n x y ⟨rfl, -⟩
      rw [Bool.eq_iff_iff, counts_eq_true, decide_eq_true_eq]
    · rintro n x y s ⟨rfl, hlt⟩
      have hnext : (advance x s).toNat = (x.toNat + 1) % 2 ^ 32 := by
        rw [advance, UInt32.toNat_add]
        rfl
      exact ⟨hnext.trans (Nat.mod_eq_of_lt (by omega)), by omega⟩
  · rw [map_pure]
    exact Grammar.obeys_pure _ n

/-- **The second version**, for an announcement without an EID. -/
theorem obeys_readVersion01 (ha : a.canonicalEid = EID.none) (hstack : n ≤ r.stack)
    (hheap : n ≤ r.heap) (hn : n < 2 ^ 32) :
    Obeys (readVersion01 r a) (fill a <$> version01) n := by
  rw [version01, map_bind]
  refine (Grammar.obeys_getByte _ n).bind fun flags => ?_
  rw [map_bind]
  refine (Grammar.obeys_getByte _ n).bind fun _ => ?_
  rw [map_bind]
  refine (Grammar.obeys_getByte _ n).bind fun _ => ?_
  dsimp only
  split_ifs with heid
  · rw [map_bind]
    exact (BundleString.obeys_readWithin hstack).bind fun eid =>
      obeys_readServiceBlock (a := { a with flags, canonicalEid := EID.ofString eid }) hstack hheap
        hn
  · have hblock := obeys_readServiceBlock (a := { a with flags }) hstack hheap hn
    dsimp only at hblock
    rw [ha] at hblock ⊢
    exact hblock

/-! ### The third version -/

/-- A beacon of the other daemon: ten bytes of other fields, the length of an EID in the order of
the network, the EID, and zeros up to a multiple of four bytes. -/
def Ipdiscovery (bs : Bytes) (b : Announced) : Prop :=
  ∃ fields text : Bytes, fields.length = 10 ∧ 0 ∉ text ∧ text.length < 2 ^ 16 ∧
    bs = fields ++ (networkOrder text.length ++
      (text ++ List.replicate ((4 - text.length % 4) % 4) 0)) ∧
    b = ⟨0, EID.ofString text, none⟩

/-- The length of the EID, as the reader takes it. -/
def eidLen (bs : Bytes) : ℕ := littleEndian ((bs.drop 10).take 2)

/-- What the reader of the third version needs: a length that fits the stack, and a zero among that
many of the bytes that follow. -/
def Terminates (stack : ℕ) (bs : Bytes) : Prop :=
  12 ≤ bs.length ∧ eidLen bs ≤ stack ∧ 0 ∈ (bs.drop 12).take (eidLen bs)

/-- **What is read of the third version.** -/
theorem recognises_readIpdiscovery (r : Resources) (a : DiscoveryAnnouncement) :
    Parser.Recognises (readIpdiscovery r a) fun m b m' => ∃ head m₁ eid, head.length = 12 ∧
      m.Starts head m₁ ∧ Held r (littleEndian (head.drop 10)) m₁ eid m' ∧ 0 ∈ eid ∧
        b = { a with
          version := dtndIpdiscovery
          canonicalEid := EID.ofString (eid.takeWhile (· ≠ 0)) } := by
  refine ((Parser.recognises_readBytes 10).bind fun fields =>
    (Parser.recognises_readBytes 2).bind fun eidLen =>
      (recognises_readArray r (littleEndian eidLen)).bind fun eid =>
        (Beacon.recognises_cString eid).bind fun text =>
          Parser.recognises_pure _).congr fun m b m' => ⟨?_, ?_⟩
  · rintro ⟨fields, m₁, ⟨hfields, hm₁⟩, eidLen, m₂, ⟨heidLen, hm₂⟩, eid, m₃, heid, text, m₄, htext,
      rfl, rfl⟩
    split_ifs at htext with hzero
    obtain ⟨rfl, rfl⟩ := htext
    refine ⟨fields ++ eidLen, m₂, eid, ?_, hm₁.append hm₂, ?_, hzero, rfl⟩
    · rw [List.length_append, hfields, heidLen]
    · rw [← hfields, List.drop_left]
      exact heid
  · rintro ⟨head, m₂, eid, hlength, hstarts, heid, hzero, rfl⟩
    obtain ⟨m₁, hm₁, hm₂⟩ := hstarts.split 10
    refine ⟨head.take 10, m₁, ⟨?_, hm₁⟩, head.drop 10, m₂, ⟨?_, hm₂⟩, eid, m', heid,
      eid.takeWhile (· ≠ 0), m', ?_, rfl, rfl⟩
    · rw [List.length_take, hlength]
      rfl
    · rw [List.length_drop, hlength]
    · rw [if_pos hzero]
      exact ⟨rfl, rfl⟩

/-- **The third version never turns anything down.** -/
theorem catches_of_readIpdiscovery {s : InStream} {e : Exn}
    (h : ((readIpdiscovery r a).run s).1 = .error e) : catches e = false := by
  obtain ⟨fields, s₁, hfields⟩ := Loader.exists_run_readBytes (ε := Exn) 10 s
  obtain ⟨eidLen, s₂, heidLen⟩ := Loader.exists_run_readBytes (ε := Exn) 2 s₁
  rw [readIpdiscovery, Parser.run_bind_ok hfields, Parser.run_bind_ok heidLen, readArray] at h
  split_ifs at h with hstack
  · obtain ⟨eid, s₃, heid⟩ := Loader.exists_run_readBytes (ε := Exn) (littleEndian eidLen) s₂
    rw [Parser.run_bind_ok heid, cString] at h
    split_ifs at h with hzero
    · cases h
    · cases h
      rfl
  · cases h
    rfl

/-- A beginning of less than twelve bytes. -/
theorem exists_ipdiscovery_of_lt {bs : Bytes} (h : bs.length < 12) :
    ∃ ext b, ext ≠ [] ∧ Ipdiscovery (bs ++ ext) b := by
  have hlength : (bs ++ List.replicate (12 - bs.length) 0).length = 12 := by
    rw [List.length_append, List.length_replicate]
    omega
  obtain ⟨c, hc⟩ : ∃ c : UInt8, (bs ++ List.replicate (12 - bs.length) 0).drop 10 = [c, 0] := by
    obtain ⟨c, d, hcd⟩ := List.length_eq_two.1 (show
      ((bs ++ List.replicate (12 - bs.length) 0).drop 10).length = 2 by
        rw [List.length_drop, hlength])
    refine ⟨c, hcd.trans ?_⟩
    have hlast : (bs ++ List.replicate (12 - bs.length) 0)[11]? = some d := by
      have hget := congrArg (·[1]?) hcd
      simpa using hget
    have hzero : (bs ++ List.replicate (12 - bs.length) 0)[11]? = some 0 := by
      rw [List.getElem?_append_right (by omega), List.getElem?_replicate, if_pos (by omega)]
    rw [Option.some.inj (hlast.symm.trans hzero)]
  have hlt := c.toNat_lt
  have htext : (List.replicate (c.toNat * 256) (1 : UInt8)).length = c.toNat * 256 :=
    List.length_replicate
  have horder : networkOrder (c.toNat * 256) = [c, 0] := by
    have hhigh : UInt8.ofNat (c.toNat * 256 / 256) = c := by
      rw [Nat.mul_div_cancel _ (by omega), UInt8.ofNat_toNat]
    have hlow : UInt8.ofNat (c.toNat * 256) = 0 := by
      rw [← UInt8.toNat_inj, UInt8.toNat_ofNat']
      exact Nat.mul_mod_left _ _
    rw [networkOrder, hhigh, hlow]
  refine ⟨List.replicate (12 - bs.length) 0 ++ List.replicate (c.toNat * 256) 1, _, ?_,
    (bs ++ List.replicate (12 - bs.length) 0).take 10, List.replicate (c.toNat * 256) 1, ?_, ?_, ?_,
    ?_, rfl⟩
  · intro hnil
    have hlen := congrArg List.length (List.append_eq_nil_iff.1 hnil).1
    rw [List.length_replicate, List.length_nil] at hlen
    omega
  · rw [List.length_take, hlength]
    rfl
  · intro hmem
    exact absurd (List.eq_of_mem_replicate hmem) (by decide)
  · rw [htext]
    omega
  · rw [htext, horder, ← hc, ← List.append_assoc, ← List.append_assoc, List.take_append_drop,
      show (4 - c.toNat * 256 % 4) % 4 = 0 by omega, List.replicate_zero, List.append_nil,
      List.append_assoc]

/-- **The third version is read** if what its reader needs is there: the EID is the text in front of
the first zero. -/
theorem run_readIpdiscovery_of_terminates {bs : Bytes} (h : Terminates r.stack bs) (st : Bytes) :
    ∃ cs s', (readIpdiscovery r a).run ⟨bs, false, false, st⟩ = (.ok { a with
      version := dtndIpdiscovery
      canonicalEid := EID.ofString
        (((bs.drop 12).take (eidLen bs) ++ cs).takeWhile (· ≠ 0)) }, s') := by
  obtain ⟨hlen, hstack, hzero⟩ := h
  obtain ⟨cs, m', hlength, hstarts⟩ := Tape.exists_starts_take (eidLen bs) (bs.drop 12) st
  have hhead := Tape.starts_unread (bs.take 12) (bs.drop 12) st
  rw [List.take_append_drop] at hhead
  have hheld : Held r (littleEndian ((bs.take 12).drop 10)) (bs.drop 12, st)
      ((bs.drop 12).take (eidLen bs) ++ cs) m' := by
    rw [List.drop_take]
    exact ⟨hstack, hlength, hstarts⟩
  obtain ⟨s', hrun, -⟩ := (recognises_readIpdiscovery r a).complete
    (s := ⟨bs, false, false, st⟩) (Or.inl rfl)
    ⟨bs.take 12, _, _, List.length_take_of_le hlen, hhead, hheld,
      List.mem_append_left cs hzero, rfl⟩
  exact ⟨cs, s', hrun⟩

/-- **The bytes that do no harm** to the reader of the third version. -/
theorem orderly_readIpdiscovery_iff {bs : Bytes} :
    ((readIpdiscovery r a).Orderly (fun e => catches e = true) bs ∧
      ((∃ ext b, ext ≠ [] ∧ Ipdiscovery (bs ++ ext) b) →
        (readIpdiscovery r a).Silent (fun e => catches e = true) bs)) ↔
      ¬ (∃ ext b, ext ≠ [] ∧ Ipdiscovery (bs ++ ext) b) ∧ Terminates r.stack bs := by
  constructor
  · rintro ⟨horderly, hsilent⟩
    have hno : ¬ ∃ ext b, ext ≠ [] ∧ Ipdiscovery (bs ++ ext) b := by
      intro hcontinues
      obtain ⟨e, he, hcatches⟩ := hsilent hcontinues []
      exact Bool.false_ne_true ((catches_of_readIpdiscovery he).symm.trans hcatches)
    have hlen : 12 ≤ bs.length := by
      by_contra hlt
      exact hno (exists_ipdiscovery_of_lt (Nat.not_le.1 hlt))
    refine ⟨hno, hlen, ?_⟩
    -- Memory without a zero.
    rcases hrun : (readIpdiscovery r a).run ⟨bs, false, false,
      List.replicate (eidLen bs - (bs.drop 12).length) 1⟩ with ⟨e | b, s'⟩
    · have he : ((readIpdiscovery r a).run ⟨bs, false, false,
          List.replicate (eidLen bs - (bs.drop 12).length) 1⟩).1 = .error e := by rw [hrun]
      exact absurd ((catches_of_readIpdiscovery he).symm.trans (horderly _ e he))
        Bool.false_ne_true
    · obtain ⟨head, m₁, eid, hlength, hstarts, ⟨hstack, heid, hstarts'⟩, hzero, -⟩ :=
        (recognises_readIpdiscovery r a).sound (Or.inl rfl) hrun
      have hhead := Tape.starts_unread (bs.take 12) (bs.drop 12)
        (List.replicate (eidLen bs - (bs.drop 12).length) 1)
      rw [List.take_append_drop] at hhead
      obtain ⟨rfl, rfl⟩ := hstarts.unique hhead
        (hlength.trans (List.length_take_of_le hlen).symm)
      rw [List.drop_take] at hstack heid
      refine ⟨hstack, ?_⟩
      have hones : ∃ m', Tape.Starts (bs.drop 12,
          List.replicate (eidLen bs - (bs.drop 12).length) 1)
          ((bs.drop 12).take (eidLen bs) ++
            List.replicate (eidLen bs - (bs.drop 12).length) 1) m' := by
        rcases Nat.le_or_ge (eidLen bs) (bs.drop 12).length with hle | hge
        · rw [Nat.sub_eq_zero_of_le hle, List.replicate_zero, List.append_nil]
          have hstarts := Tape.starts_unread ((bs.drop 12).take (eidLen bs))
            ((bs.drop 12).drop (eidLen bs)) []
          rw [List.take_append_drop] at hstarts
          exact ⟨_, hstarts⟩
        · rw [List.take_of_length_le hge]
          have hstale := Tape.starts_stale
            (List.replicate (eidLen bs - (bs.drop 12).length) 1) []
          rw [List.append_nil] at hstale
          exact ⟨_, Tape.starts_append _ hstale⟩
      obtain ⟨m', hones⟩ := hones
      have heidLen : eid.length = eidLen bs := heid
      obtain ⟨rfl, -⟩ := hstarts'.unique hones (by
        rw [List.length_append, List.length_take, List.length_replicate, heidLen]
        omega)
      rcases List.mem_append.1 hzero with hmem | hmem
      · exact hmem
      · exact absurd (List.eq_of_mem_replicate hmem) (by decide)
  · rintro ⟨hno, hterminates⟩
    refine ⟨fun st e he => ?_, fun hcontinues => absurd hcontinues hno⟩
    obtain ⟨cs, s', hrun⟩ := run_readIpdiscovery_of_terminates (a := a) hterminates st
    rw [hrun] at he
    cases he

/-- A whole beacon that is read gives its EID. -/
theorem Ipdiscovery.takeWhile_eq {bs : Bytes} {b : Announced} (h : Ipdiscovery bs b) {stack : ℕ}
    (hterminates : Terminates stack bs) (cs : Bytes) :
    EID.ofString (((bs.drop 12).take (eidLen bs) ++ cs).takeWhile (· ≠ 0)) = b.eid := by
  obtain ⟨fields, text, hfields, htext, -, rfl, rfl⟩ := h
  have hzero := hterminates.2.2
  generalize eidLen (fields ++ (networkOrder text.length ++
    (text ++ List.replicate ((4 - text.length % 4) % 4) 0))) = k at hzero ⊢
  have hdrop : (fields ++ (networkOrder text.length ++
      (text ++ List.replicate ((4 - text.length % 4) % 4) 0))).drop 12 =
        text ++ List.replicate ((4 - text.length % 4) % 4) 0 := by
    rw [← List.append_assoc]
    exact List.drop_left' (by rw [List.length_append, hfields]; rfl)
  rw [hdrop, List.take_append] at hzero ⊢
  have hk : 0 ∈ (List.replicate ((4 - text.length % 4) % 4) (0 : UInt8)).take
      (k - text.length) := by
    rcases List.mem_append.1 hzero with hmem | hmem
    · exact absurd (List.mem_of_mem_take hmem) htext
    · exact hmem
  rw [List.take_replicate] at hk ⊢
  have hpos : min (k - text.length) ((4 - text.length % 4) % 4) ≠ 0 := by
    intro hmin
    rw [hmin] at hk
    exact List.not_mem_nil hk
  have hnonzero : ∀ b ∈ text, decide (b ≠ 0) = true := by
    intro b hb
    refine decide_eq_true ?_
    rintro rfl
    exact htext hb
  obtain ⟨j, hj⟩ := Nat.exists_eq_add_one_of_ne_zero hpos
  rw [List.take_of_length_le (by omega), hj, List.replicate_succ, List.append_assoc,
    List.takeWhile_append_of_pos hnonzero]
  simp

end Announced

end IbrDtn
