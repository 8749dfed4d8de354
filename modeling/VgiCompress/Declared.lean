import VgiCompress.Blocks
import VgiCompress.RoundTrip

/-!
# Lengths that are declared

The two block codecs check the cap against a length in the input, and
nothing compares that length with what comes out. `cap_tight_iff` says on
which inputs the cap is therefore refused although the output fits, and
`prefix_honest_iff` for which payloads the length that lz4_flex writes is
the payload's.

All other decodes are tight, since the sink only counts: a run that fits a
smaller cap is the same run under it (`run_narrow`), whatever the decoder
does after a refusal.
-/

namespace VgiCompress

open RustStd

/-! ## A run under a smaller cap -/

namespace BoundedWriter

/-- The writer under another cap. -/
def withCap (w : BoundedWriter) (cap : UInt64) : BoundedWriter := { w with cap }

theorem le_saturatingAdd (a : UInt64) (n : Nat) : a ≤ saturatingAdd a n := by
  have hlt := a.toNat_lt
  rw [UInt64.le_iff_toNat_le, saturatingAdd_toNat]
  omega

/-- A write keeps the cap and does not lower the count. -/
theorem write_grows (w : BoundedWriter) (d : Bytes) :
    (w.write d).2.cap = w.cap ∧ w.written ≤ (w.write d).2.written := by
  rw [write]
  split
  · exact ⟨rfl, UInt64.le_refl _⟩
  · split
    · exact ⟨rfl, UInt64.le_refl _⟩
    · exact ⟨rfl, le_saturatingAdd _ _⟩

/-- A write whose outcome fits the smaller cap is answered alike under it. -/
theorem write_withCap {w w' : BoundedWriter} {d : Bytes} {res : Outcome IoError Nat}
    {cap : UInt64} (hle : cap ≤ w.cap) (hw : w.write d = (res, w')) (hres : res ≠ .panic)
    (hfit : w'.written ≤ cap) : (w.withCap cap).write d = (res, w'.withCap cap) := by
  rw [write] at hw ⊢
  by_cases hgt : saturatingAdd w.written d.length > w.cap
  · have hgt' : saturatingAdd w.written d.length > cap := UInt64.lt_of_le_of_lt hle hgt
    rw [if_pos hgt] at hw
    obtain ⟨rfl, rfl⟩ := Prod.mk.inj hw
    exact if_pos hgt'
  · rw [if_neg hgt] at hw
    cases hbuf : extendFromSlice w.buf d with
    | none =>
        rw [hbuf] at hw
        exact absurd (congrArg Prod.fst hw).symm hres
    | some buf =>
        rw [hbuf] at hw
        obtain ⟨rfl, rfl⟩ := Prod.mk.inj hw
        have hgt' : ¬saturatingAdd w.written d.length > cap := UInt64.not_lt.mpr hfit
        simp only [withCap, if_neg hgt', hbuf]

theorem writeAll_withCap {w w' : BoundedWriter} {d : Bytes} {res : Outcome IoError Unit}
    {cap : UInt64} (hle : cap ≤ w.cap) (hw : sink.writeAll w d = (res, w')) (hres : res ≠ .panic)
    (hfit : w'.written ≤ cap) : sink.writeAll (w.withCap cap) d = (res, w'.withCap cap) := by
  by_cases hd : d = []
  · subst hd
    obtain ⟨rfl, rfl⟩ := Prod.mk.inj hw
    rfl
  · rw [Sink.writeAll_whole sink_whole w hd] at hw
    obtain ⟨hr, rfl⟩ := Prod.mk.inj hw
    have hstep : (w.withCap cap).write d = ((w.write d).1, (w.write d).2.withCap cap) := by
      refine write_withCap hle rfl ?_ hfit
      intro hpanic
      rw [show sink.write w d = w.write d from rfl, hpanic] at hr
      exact hres hr.symm
    rw [Sink.writeAll_whole sink_whole _ hd, show sink.write _ d = write _ d from rfl, hstep]
    exact congrArg (·, _) hr

/-- A run counts up. -/
theorem written_le_run (p : Writes String UInt8) (w : BoundedWriter) :
    w.written ≤ (p.run sink w).2.written :=
  Writes.run_inv (I := fun u => w.written ≤ u.written) sink_whole
    (fun u d hu => UInt64.le_trans hu (u.write_grows d).2) p (UInt64.le_refl _)

/-- **A run that fits a smaller cap is the same run under it**: a write that
was accepted fits, and one that was refused is refused all the more. -/
theorem run_withCap {p : Writes String UInt8} {w w' : BoundedWriter} {res : Outcome String Unit}
    {cap : UInt64} (hle : cap ≤ w.cap) (hrun : p.run sink w = (res, w')) (hres : res ≠ .panic)
    (hfit : w'.written ≤ cap) : p.run sink (w.withCap cap) = (res, w'.withCap cap) := by
  induction p generalizing w with
  | done r =>
      obtain ⟨rfl, rfl⟩ := Prod.mk.inj hrun
      rfl
  | write d accepted refused ihAccepted ihRefused =>
      have hgrows : (sink.writeAll w d).2.cap = w.cap ∧ w.written ≤ (sink.writeAll w d).2.written :=
        Sink.writeAll_inv (I := fun u => u.cap = w.cap ∧ w.written ≤ u.written) sink_whole
          (fun u d hu => ⟨(u.write_grows d).1.trans hu.1,
            UInt64.le_trans hu.2 (u.write_grows d).2⟩) ⟨rfl, UInt64.le_refl _⟩ d
      rw [Writes.run] at hrun ⊢
      cases hw : sink.writeAll w d with
      | mk r w₁ =>
          rw [hw] at hrun hgrows
          have hle₁ : cap ≤ w₁.cap := by rw [hgrows.1]; exact hle
          cases r with
          | ok u =>
              change accepted.run sink w₁ = _ at hrun
              have hfit₁ := UInt64.le_trans (written_le_run accepted w₁) (by rw [hrun]; exact hfit)
              rw [writeAll_withCap hle hw (by simp) hfit₁]
              exact ihAccepted hle₁ hrun
          | err e =>
              change refused.run sink w₁ = _ at hrun
              have hfit₁ := UInt64.le_trans (written_le_run refused w₁) (by rw [hrun]; exact hfit)
              rw [writeAll_withCap hle hw (by simp) hfit₁]
              exact ihRefused hle₁ hrun
          | panic =>
              obtain ⟨rfl, -⟩ := Prod.mk.inj hrun
              exact absurd rfl hres

end BoundedWriter

/-! ## Decodes that only count -/

/-- The length of an output under the cap, as a cap. -/
theorem toNat_ofNat_length {v : Bytes} {cap : UInt64} (h : v.length ≤ cap.toNat) :
    (UInt64.ofNat v.length).toNat = v.length ∧ UInt64.ofNat v.length ≤ cap := by
  have hlt := cap.toNat_lt
  have hnat : (UInt64.ofNat v.length).toNat = v.length := by
    rw [UInt64.toNat_ofNat']
    omega
  exact ⟨hnat, UInt64.le_iff_toNat_le.mpr (by omega)⟩

theorem drainReader_tight {r : Reads UInt8} {cap : UInt64} {v : Bytes}
    (h : drainReader r cap = .ok v) : drainReader r (.ofNat v.length) = .ok v := by
  obtain ⟨hout, hend, hcap, hmem⟩ := drainReader_eq_ok_iff.mp h
  refine drainReader_eq_ok_iff.mpr ⟨hout, hend, ?_, hmem⟩
  exact Nat.le_of_eq (toNat_ofNat_length hcap).1.symm

theorem decodeIntoSink_tight {p : Writes String UInt8} {cap : UInt64} {v : Bytes}
    (h : decodeIntoSink p cap = .ok v) : decodeIntoSink p (.ofNat v.length) = .ok v := by
  have hholds := Writes.run_inv BoundedWriter.sink_whole holds_write p (holds_new cap)
  rw [decodeIntoSink_eq] at h
  cases hrun : p.run BoundedWriter.sink (.new cap) with
  | mk res w =>
      rw [hrun] at h hholds
      cases res with
      | err e =>
          simp only [finishSink] at h
          split at h <;> cases h
      | panic => cases h
      | ok u =>
          obtain rfl : w.buf = v := Outcome.ok.inj h
          obtain ⟨q, hm, hlimit⟩ := hholds
          obtain ⟨hnat, hle⟩ := toNat_ofNat_length (Holds.length_le ⟨q, hm, hlimit⟩)
          have hcount : w.written.toNat = w.buf.length := by rw [hm.written, hm.buf]
          have hfit : w.written ≤ .ofNat w.buf.length :=
            UInt64.le_iff_toNat_le.mpr (Nat.le_of_eq (hcount.trans hnat.symm))
          have hsame := BoundedWriter.run_withCap hle hrun (by simp) hfit
          change p.run BoundedWriter.sink (.new (.ofNat w.buf.length)) = _ at hsame
          rw [decodeIntoSink_eq, hsame]
          rfl

/-! ## The two block codecs -/

section Tight

variable {be : Backends} {blockOutput : Bytes → Option Bytes}

/-- lz4_flex decodes what follows the prefix, and returns what that comes
to as long as it is no more than declared. -/
def Crate.Lz4Flex.DecodesBlocks (lz : Crate.Lz4Flex) (blockOutput : Bytes → Option Bytes) :
    Prop :=
  ∀ input n v, Lz4.declaredSize input = some n →
    (lz.decompressSizePrepended input = .ok v
      ↔ blockOutput (input.drop 4) = some v ∧ v.length ≤ n.toNat)

theorem Lz4.decompressBlock_decodes_iff (hlz4 : be.lz4Flex.DecodesBlocks blockOutput)
    {input v : Bytes} {cap : UInt64} :
    Lz4.decompressBlock be input cap = .ok v ↔
      ∃ n, Lz4.declaredSize input = some n ∧ n ≤ cap ∧ blockOutput (input.drop 4) = some v
        ∧ v.length ≤ n.toNat := by
  rw [Lz4.decompressBlock_eq_ok_iff]
  constructor
  · rintro ⟨n, hn, hle, hv⟩
    exact ⟨n, hn, hle, (hlz4 input n v hn).mp hv⟩
  · rintro ⟨n, hn, hle, hv⟩
    exact ⟨n, hn, hle, (hlz4 input n v hn).mpr hv⟩

/-- The block comes to less than it declares, and the cap admits what it
declares. -/
def DeclaresMore (blockOutput : Bytes → Option Bytes) (input : Bytes) (cap : UInt64) : Prop :=
  ∃ n v, Lz4.declaredSize input = some n ∧ n ≤ cap ∧ blockOutput (input.drop 4) = some v
    ∧ v.length < n.toNat

theorem Lz4.decompressBlock_tight_iff (hlz4 : be.lz4Flex.DecodesBlocks blockOutput)
    (input : Bytes) (cap : UInt64) :
    (∀ v, Lz4.decompressBlock be input cap = .ok v →
        Lz4.decompressBlock be input (.ofNat v.length) = .ok v)
      ↔ ¬DeclaresMore blockOutput input cap := by
  constructor
  · rintro htight ⟨n, v, hn, hle, hv, hlt⟩
    have hok : Lz4.decompressBlock be input cap = .ok v :=
      (decompressBlock_decodes_iff hlz4).mpr ⟨n, hn, hle, hv, Nat.le_of_lt hlt⟩
    obtain ⟨m, hm, hle', -⟩ := (decompressBlock_decodes_iff hlz4).mp (htight v hok)
    obtain rfl : n = m := Option.some.inj (hn.symm.trans hm)
    have hcap : v.length ≤ cap.toNat := by
      have := UInt64.le_iff_toNat_le.mp hle
      omega
    rw [UInt64.le_iff_toNat_le, (toNat_ofNat_length hcap).1] at hle'
    omega
  · intro hnot v hok
    obtain ⟨n, hn, hle, hv, hfit⟩ := (decompressBlock_decodes_iff hlz4).mp hok
    have hexact : n.toNat ≤ v.length := by
      refine Nat.le_of_not_lt fun hlt => ?_
      exact hnot ⟨n, v, hn, hle, hv, hlt⟩
    have hcap : v.length ≤ cap.toNat := Nat.le_trans hfit (UInt64.le_iff_toNat_le.mp hle)
    refine (decompressBlock_decodes_iff hlz4).mpr ⟨n, hn, ?_, hv, hfit⟩
    rw [UInt64.le_iff_toNat_le, (toNat_ofNat_length hcap).1]
    exact hexact

theorem Snappy.decompressRaw_tight (hsnap : be.snap.LenExact) {input v : Bytes} {cap : UInt64}
    (h : Snappy.decompressRaw be input cap = .ok v) :
    Snappy.decompressRaw be input (.ofNat v.length) = .ok v := by
  obtain ⟨n, hn, hle, hv⟩ := Snappy.decompressRaw_eq_ok_iff.mp h
  obtain rfl : v.length = n := hsnap input v n hv hn
  refine Snappy.decompressRaw_eq_ok_iff.mpr ⟨_, hn, ?_, hv⟩
  exact Nat.le_of_eq (toNat_ofNat_length hle).1.symm

/-- A decode that succeeds, succeeds under a cap of just its output. -/
def Tight (be : Backends) (codec : String) (input : Bytes) (cap : UInt64) : Prop :=
  ∀ v, decompress be codec input cap = .ok v →
    decompress be codec input (.ofNat v.length) = .ok v

/-- **The cap is tight** except on an lz4 block that comes to less than it
declares, for any cap that admits what it declares. -/
theorem cap_tight_iff (hlz4 : be.lz4Flex.DecodesBlocks blockOutput) (hsnap : be.snap.LenExact)
    (codec : String) (input : Bytes) (cap : UInt64) :
    Tight be codec input cap
      ↔ (Codec.parse codec = .ok .lz4Block → ¬DeclaresMore blockOutput input cap) := by
  rcases Codec.parse_cases codec with ⟨c, hc⟩ | hc
  · have hdecode (cap : UInt64) : decompress be codec input cap = c.decompress be input cap :=
      decompress_of_parse hc input cap
    have hparse : Codec.parse codec = .ok .lz4Block ↔ c = .lz4Block := by
      rw [hc, Outcome.ok.injEq]
    simp only [Tight, hdecode, hparse]
    have hfree (hne : c ≠ .lz4Block) : c = .lz4Block → ¬DeclaresMore blockOutput input cap :=
      fun heq => absurd heq hne
    cases c with
    | lz4Block =>
        refine (Lz4.decompressBlock_tight_iff hlz4 input cap).trans ?_
        exact ⟨fun h _ => h, fun h => h rfl⟩
    | snappyRaw =>
        exact iff_of_true (fun v h => Snappy.decompressRaw_tight hsnap h) (hfree (by decide))
    | zstd =>
        refine iff_of_true (fun v h => ?_) (hfree (by decide))
        rw [Codec.decompress, Zstd.decompress_eq] at h ⊢
        cases hr : be.zstd.decoder input with
        | ok r => rw [hr] at h; exact drainReader_tight h
        | error e => rw [hr] at h; cases h
    | xz =>
        refine iff_of_true (fun v h => ?_) (hfree (by decide))
        rw [Codec.decompress, Xz.decompressXz] at h ⊢
        cases hx : be.xzBackend with
        | lzmaRs => rw [hx] at h; exact decodeIntoSink_tight h
        | liblzma => rw [hx] at h; exact drainReader_tight h
    | lzma => exact iff_of_true (fun v h => decodeIntoSink_tight h) (hfree (by decide))
    | gzip | zlib | deflate | brotli | lz4 | snappy | bzip2 =>
        exact iff_of_true (fun v h => drainReader_tight h) (hfree (by decide))
  · have hnone (cap : UInt64) :
        decompress be codec input cap = .err (.unknownCodec codec) :=
      decompress_of_err hc input cap
    refine iff_of_true ?_ ?_
    · intro v hv
      rw [hnone] at hv
      cases hv
    · intro hparse
      rw [hc] at hparse
      cases hparse

end Tight

/-- `cap_tight_iff` on the lz4 block of `"a"`. -/
theorem cap_tight_sample :
    Tight Sample.cutBuild "lz4_block" [0x01, 0x00, 0x00, 0x00, 0x10, 0x61] 9 := by
  have hlz4 : Sample.cutBuild.lz4Flex.DecodesBlocks Lz4.blockOutput :=
    fun _ _ _ hn => Sample.unblock_eq_ok hn
  refine (cap_tight_iff hlz4 Sample.lenExact "lz4_block" _ 9).mpr ?_
  rintro - ⟨n, v, hn, -, hv, hlt⟩
  obtain rfl : 1 = n := Option.some.inj hn
  obtain rfl : [0x61] = v := Option.some.inj hv
  exact absurd hlt (by decide)

/-- A block that declares two bytes and comes to one needs a cap of two. -/
theorem short_block_needs_its_declared_cap :
    decompress Sample.cutBuild "lz4_block" [0x02, 0x00, 0x00, 0x00, 0x10, 0x61] 2 = .ok [0x61]
      ∧ decompress Sample.cutBuild "lz4_block" [0x02, 0x00, 0x00, 0x00, 0x10, 0x61] 1
        = .err (.outputTooLarge 1)
      ∧ ¬Tight Sample.cutBuild "lz4_block" [0x02, 0x00, 0x00, 0x00, 0x10, 0x61] 2 := by
  have hok : decompress Sample.cutBuild "lz4_block" [0x02, 0x00, 0x00, 0x00, 0x10, 0x61] 2
      = .ok [0x61] := by decide +kernel
  refine ⟨hok, by decide +kernel, ?_⟩
  intro htight
  exact absurd (htight [0x61] hok) (by decide +kernel)

/-! ## The prefix that is written -/

section Written

variable {be : Backends}

/-- What the call returns declares the payload's length, and decodes to it
under every cap that holds it. -/
def PrefixHonest (be : Backends) (codec : String) (x : Bytes) (level : Option Int32) : Prop :=
  ∀ s, compress be codec x level = .ok s →
    (∃ n, Lz4.declaredSize s = some n ∧ n.toNat = x.length)
      ∧ ∀ cap : UInt64, x.length ≤ cap.toNat → decompress be codec s cap = .ok x

/-- **The length prefix is honest** up to the `u32` it is cast to. -/
theorem prefix_honest_iff (hwrites : be.lz4Flex.WritesPrefix)
    (hinv : ∀ x, x.length < 2 ^ 32 →
      be.lz4Flex.decompressSizePrepended (be.lz4Flex.compressPrependSize x) = .ok x)
    {codec : String} (hc : Codec.parse codec = .ok .lz4Block) (x : Bytes)
    (level : Option Int32) : PrefixHonest be codec x level ↔ x.length < 2 ^ 32 := by
  have hcompress : compress be codec x level = .ok (be.lz4Flex.compressPrependSize x) :=
    compress_of_parse hc x level
  obtain ⟨n, hn, hlen⟩ := declaredSize_of_prefix (hwrites x)
  constructor
  · intro h
    obtain ⟨⟨m, hm, hexact⟩, -⟩ := h _ hcompress
    obtain rfl : n = m := Option.some.inj (hn.symm.trans hm)
    omega
  · intro hx s hs
    obtain rfl := Outcome.ok.inj (hcompress.symm.trans hs)
    refine ⟨⟨n, hn, by rw [hlen, Nat.mod_eq_of_lt hx]⟩, ?_⟩
    intro cap hcap
    rw [decompress_of_parse hc]
    show Lz4.decompressBlock be _ cap = _
    rw [Lz4.decompressBlock_compressBlock hwrites hx (hinv x hx), payloadUnder, if_pos hcap]

end Written

/-- `prefix_honest_iff` on `"a"`. -/
theorem prefix_honest_sample : PrefixHonest Sample.build "lz4_block" [0x61] none := by
  have hparse : Codec.parse "lz4_block" = .ok .lz4Block := rfl
  exact (prefix_honest_iff Sample.encodersInvert.lz4Prefix Sample.encodersInvert.lz4Block hparse
    [0x61] none).mpr (by decide)

/-- The prefix of a payload of `2 ^ 32` zeros says 0. -/
theorem long_payload_declares_zero :
    (∃ n, Lz4.declaredSize (Sample.lz4Block (List.replicate (2 ^ 32) 0)) = some n ∧ n.toNat = 0)
      ∧ ¬PrefixHonest Sample.build "lz4_block" (List.replicate (2 ^ 32) 0) none := by
  have hcompress (x : Bytes) : compress Sample.build "lz4_block" x none = .ok (Sample.lz4Block x) :=
    rfl
  obtain ⟨n, hn, hlen⟩ := Sample.declaredSize_lz4Block (List.replicate (2 ^ 32) 0)
  rw [List.length_replicate] at hlen
  refine ⟨⟨n, hn, hlen⟩, ?_⟩
  intro h
  obtain ⟨⟨m, hm, hexact⟩, -⟩ := h _ (hcompress _)
  obtain rfl : n = m := Option.some.inj (hn.symm.trans hm)
  rw [List.length_replicate] at hexact
  omega

end VgiCompress
