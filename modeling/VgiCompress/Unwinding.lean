import VgiCompress.Arguments
import VgiCompress.Validity

/-!
# What does not unwind

No public function of the engine panics on any bytes, under caps that a
`Vec` can be filled to, and no cell that exists panics when it is read. So a
row unwinds in a decode only, and only under a cap beyond `isize::MAX`. Such
a cap is named by the environment variable and by nothing else
(`env_of_lt_resolveCap`).
-/

namespace VgiCompress

open RustStd

/-! ## The engine -/

section Engine

variable (be : Backends)

theorem corruptErr_ne_panic {α : Type} (r : Except String α) : corruptErr r ≠ .panic :=
  Outcome.mapErr_ne_panic (Outcome.ofExcept_ne_panic r)

theorem Encoder.encode_ne_panic (enc : Encoder) (input : Bytes) : enc.encode input ≠ .panic := by
  refine Outcome.bind_ne_panic (corruptErr_ne_panic _) ?_
  intro _ _
  exact corruptErr_ne_panic _

theorem Codec.compress_ne_panic (c : Codec) (input : Bytes) (level : Option Int32) :
    c.compress be input level ≠ .panic := by
  cases c with
  | zstd | snappyRaw | lzma => exact corruptErr_ne_panic _
  | gzip | zlib | deflate | brotli | lz4 | snappy | bzip2 => exact Encoder.encode_ne_panic _ input
  | lz4Block => exact Outcome.ok_ne_panic _
  | xz =>
      rw [Codec.compress, Xz.compressXz]
      cases be.xzBackend with
      | lzmaRs => exact corruptErr_ne_panic _
      | liblzma => exact corruptErr_ne_panic _

theorem Codec.parse_ne_panic (name : String) : Codec.parse name ≠ .panic := by
  rcases Codec.parse_cases name with ⟨c, hc⟩ | hc
  · rw [hc]; exact Outcome.ok_ne_panic c
  · rw [hc]; exact Outcome.err_ne_panic _

theorem compress_ne_panic (codec : String) (input : Bytes) (level : Option Int32) :
    compress be codec input level ≠ .panic := by
  rw [compress]
  refine Outcome.bind_ne_panic (Codec.parse_ne_panic codec) ?_
  intro c _
  exact c.compress_ne_panic be input level

theorem compressedSize_ne_panic (codec : String) (input : Bytes) (level : Option Int32) :
    compressedSize be codec input level ≠ .panic := by
  rw [compressedSize]
  refine Outcome.bind_ne_panic (compress_ne_panic be codec input level) ?_
  intro _ _
  exact Outcome.ok_ne_panic _

theorem ratio_ne_panic (codec : String) (input : Bytes) (level : Option Int32) :
    ratio be codec input level ≠ .panic := by
  unfold ratio
  split
  · exact Outcome.ok_ne_panic _
  · refine Outcome.bind_ne_panic (compressedSize_ne_panic be codec input level) ?_
    intro _ _
    exact Outcome.ok_ne_panic _

variable {cap : UInt64}

theorem decompress_ne_panic (hcap : cap.toNat ≤ isizeMax) (codec : String) (input : Bytes) :
    decompress be codec input cap ≠ .panic := by
  rw [decompress]
  refine Outcome.bind_ne_panic (Codec.parse_ne_panic codec) ?_
  intro c _
  exact c.decompress_not_panic input hcap

theorem decompressAuto_ne_panic (hcap : cap.toNat ≤ isizeMax) (input : Bytes) :
    decompressAuto be input cap ≠ .panic := by
  rw [decompressAuto]
  cases detect be input with
  | some c => exact c.decompress_not_panic input hcap
  | none => exact Outcome.err_ne_panic _

theorem countUnderGuard_ne_panic (hcap : cap.toNat ≤ isizeMax) (c : Codec) (input : Bytes) :
    countUnderGuard be c input cap ≠ .panic := by
  have hdecode : c.decompress be input cap ≠ .panic := c.decompress_not_panic input hcap
  rw [countUnderGuard]
  cases h : c.decompress be input cap with
  | ok v => exact Outcome.ok_ne_panic _
  | err e =>
      cases e with
      | outputTooLarge _ => exact Outcome.ok_ne_panic none
      | unknownCodec _ | corrupt _ | noMagic => exact Outcome.err_ne_panic _
  | panic => exact absurd h hdecode

theorem decompressedSize_ne_panic (hcap : cap.toNat ≤ isizeMax) (codec : String)
    (input : Bytes) : decompressedSize be codec input cap ≠ .panic := by
  rw [decompressedSize]
  refine Outcome.bind_ne_panic (Codec.parse_ne_panic codec) ?_
  intro c _
  have hcount := countUnderGuard_ne_panic be hcap c input
  split
  · split
    · split
      · exact Outcome.ok_ne_panic _
      · exact hcount
    · exact hcount
  · exact hcount

end Engine

/-! ## Cells -/

section Cells

variable {col : ArrayRef} {i : Nat}

theorem blobBytes_ne_panic (h : i < col.len) : blobBytes col i ≠ .panic := by
  obtain ⟨v, hv⟩ := ArrayRef.cell?_of_lt h
  unfold blobBytes
  rw [hv]
  cases v with
  | none => exact Outcome.ok_ne_panic none
  | some v =>
      obtain ⟨t, cells⟩ := col
      cases t <;> exact nofun

theorem textStr_ne_panic (h : i < col.len) : textStr col i ≠ .panic := by
  obtain ⟨v, hv⟩ := ArrayRef.cell?_of_lt h
  unfold textStr
  rw [hv]
  cases v with
  | none => exact Outcome.ok_ne_panic none
  | some v =>
      obtain ⟨t, cells⟩ := col
      cases t <;> exact nofun

theorem intVal_ne_panic (h : i < col.len) : intVal col i ≠ .panic := by
  obtain ⟨v, hv⟩ := ArrayRef.cell?_of_lt h
  unfold intVal
  rw [hv]
  cases v with
  | none => exact Outcome.ok_ne_panic none
  | some v =>
      obtain ⟨t, cells⟩ := col
      cases t <;> exact nofun

theorem requireCodec_ne_panic (h : i < col.len) : requireCodec col i ≠ .panic := by
  refine Outcome.bind_ne_panic (textStr_ne_panic h) ?_
  intro text _
  cases text with
  | none => exact Outcome.err_ne_panic _
  | some name => exact Outcome.ok_ne_panic name

theorem optIntVal_ne_panic {extra : Option ArrayRef} (h : ∀ col, extra = some col → i < col.len) :
    optIntVal extra i ≠ .panic := by
  cases extra with
  | none => exact Outcome.ok_ne_panic none
  | some col => exact intVal_ne_panic (h col rfl)

end Cells

/-! ## Caps -/

/-- Arguments and settings are `i64`, so a cap that no `Vec` can be filled to
is the environment's. -/
theorem env_of_lt_resolveCap {host : Host} {bound : DataType} {perCall : Option Int64}
    {params : ProcessParams bound}
    (h : isizeMax < (resolveCap host.env perCall params).toNat) :
    ∃ s, host.env "VGI_COMPRESS_MAX_OUTPUT_BYTES" = some s
      ∧ parseU64 (trim s.toList) = some (resolveCap host.env perCall params) := by
  have hi64 {v : Option Int64} {c : UInt64} (hc : positive v = some c) :
      ¬isizeMax < c.toNat := by
    have hpos := positive_eq v
    rw [hc, Option.map_some] at hpos
    obtain ⟨k, -, heq⟩ := Option.map_eq_some_iff.mp
      (Option.mem_toList.mp (List.mem_of_find?_eq_some hpos.symm))
    have hlt := k.toInt_lt
    rw [isizeMax]
    omega
  have hdefault : ¬isizeMax < defaultMaxOutputBytes.toNat := by decide
  unfold resolveCap at h ⊢
  split at h
  · next c hc => exact absurd h (hi64 hc)
  · next harg =>
      split at h
      · next c hc => exact absurd h (hi64 hc)
      · next hsetting =>
          split at h
          · next s hs =>
              split at h
              · next v hv =>
                  split at h
                  · next hpos =>
                      refine ⟨s, hs, ?_⟩
                      rw [hv, if_pos hpos]
                  · exact absurd h hdefault
              · exact absurd h hdefault
          · exact absurd h hdefault

/-! ## Rows -/

section Rows

variable {be : Backends} {host : Host} {input codec : ArrayRef} {extra : Option ArrayRef} {i : Nat}

theorem blob_bind_eq_panic {ω : Type} {rest : Option Bytes → Outcome RpcError (Option ω)}
    (hinput : i < input.len) (h : (blobBytes input i >>= rest) = .panic)
    (hnull : rest none = .ok none) : ∃ x, rest (some x) = .panic := by
  rcases Outcome.bind_eq_panic.mp h with h | ⟨_ | x, -, h⟩
  · exact absurd h (blobBytes_ne_panic hinput)
  · rw [hnull] at h
    exact absurd h (Outcome.ok_ne_panic none)
  · exact ⟨x, h⟩

theorem optInt_bind_eq_panic {ω : Type} {rest : Option Int64 → Outcome RpcError ω}
    (hextra : ∀ col, extra = some col → i < col.len)
    (h : (optIntVal extra i >>= rest) = .panic) :
    ∃ k, optIntVal extra i = .ok k ∧ rest k = .panic :=
  (Outcome.bind_eq_panic.mp h).resolve_left (optIntVal_ne_panic hextra)

theorem codec_bind_eq_panic {ω : Type} {rest : String → Option Int64 → Outcome RpcError ω}
    (hcodec : i < codec.len) (hextra : ∀ col, extra = some col → i < col.len)
    (h : (requireCodec codec i >>= fun name => optIntVal extra i >>= rest name) = .panic) :
    ∃ name k, optIntVal extra i = .ok k ∧ rest name k = .panic := by
  obtain ⟨name, -, h⟩ :=
    (Outcome.bind_eq_panic.mp h).resolve_left (requireCodec_ne_panic hcodec)
  obtain ⟨k, hk, h⟩ := optInt_bind_eq_panic hextra h
  exact ⟨name, k, hk, h⟩

theorem some_bind_ne_panic {α : Type} {res : Outcome CodecError α} (h : res ≠ .panic) :
    (res.mapErr codecErr >>= fun v => (pure (some v) : Outcome RpcError (Option α))) ≠ .panic :=
  Outcome.bind_ne_panic (Outcome.mapErr_ne_panic h) fun _ _ => Outcome.ok_ne_panic _

theorem IsValid.row_ne_panic (extra : Option ArrayRef) (hinput : i < input.len)
    (hcodec : i < codec.len) : IsValid.row be (input, codec, extra) i ≠ .panic := by
  intro h
  rw [IsValid.row] at h
  obtain ⟨x, h⟩ := blob_bind_eq_panic hinput h rfl
  dsimp only at h
  obtain ⟨text, -, h⟩ :=
    (Outcome.bind_eq_panic.mp h).resolve_left (textStr_ne_panic hcodec)
  cases text <;> cases h

variable (hinput : i < input.len) (hcodec : i < codec.len)
  (hextra : ∀ col, extra = some col → i < col.len)
include hinput

theorem DetectCodec.row_ne_panic : DetectCodec.row be input i ≠ .panic :=
  Outcome.bind_ne_panic (blobBytes_ne_panic hinput) fun _ _ => Outcome.ok_ne_panic _

include hextra

/-- A decode of a row unwinds under an oversized cap only. -/
theorem DecompressAuto.row_eq_panic {params : ProcessParams .binary}
    (h : DecompressAuto.row be host params (input, extra) i = .panic) :
    ∃ k, optIntVal extra i = .ok k ∧ isizeMax < (resolveCap host.env k params).toNat := by
  rw [DecompressAuto.row] at h
  obtain ⟨x, h⟩ := blob_bind_eq_panic hinput h rfl
  dsimp only at h
  obtain ⟨k, hk, h⟩ := optInt_bind_eq_panic hextra h
  refine ⟨k, hk, Nat.not_le.mp fun hcap => ?_⟩
  exact some_bind_ne_panic (decompressAuto_ne_panic be hcap x) h

include hcodec

theorem Compress.row_ne_panic : Compress.row be (input, codec, extra) i ≠ .panic := by
  intro h
  rw [Compress.row] at h
  obtain ⟨x, h⟩ := blob_bind_eq_panic hinput h rfl
  dsimp only at h
  obtain ⟨name, k, -, h⟩ := codec_bind_eq_panic hcodec hextra h
  exact some_bind_ne_panic (compress_ne_panic be name x _) h

theorem Decompress.row_eq_panic {params : ProcessParams .binary}
    (h : Decompress.row be host params (input, codec, extra) i = .panic) :
    ∃ k, optIntVal extra i = .ok k ∧ isizeMax < (resolveCap host.env k params).toNat := by
  rw [Decompress.row] at h
  obtain ⟨x, h⟩ := blob_bind_eq_panic hinput h rfl
  dsimp only at h
  obtain ⟨name, k, hk, h⟩ := codec_bind_eq_panic hcodec hextra h
  refine ⟨k, hk, Nat.not_le.mp fun hcap => ?_⟩
  exact some_bind_ne_panic (decompress_ne_panic be hcap name x) h

theorem CompressedSize.row_ne_panic : CompressedSize.row be (input, codec, extra) i ≠ .panic := by
  intro h
  rw [CompressedSize.row] at h
  obtain ⟨x, h⟩ := blob_bind_eq_panic hinput h rfl
  dsimp only at h
  obtain ⟨name, k, -, h⟩ := codec_bind_eq_panic hcodec hextra h
  exact some_bind_ne_panic (compressedSize_ne_panic be name x _) h

theorem DecompressedSize.row_eq_panic {params : ProcessParams .uint64}
    (h : DecompressedSize.row be host params (input, codec, extra) i = .panic) :
    ∃ k, optIntVal extra i = .ok k ∧ isizeMax < (resolveCap host.env k params).toNat := by
  rw [DecompressedSize.row] at h
  obtain ⟨x, h⟩ := blob_bind_eq_panic hinput h rfl
  dsimp only at h
  obtain ⟨name, k, hk, h⟩ := codec_bind_eq_panic hcodec hextra h
  refine ⟨k, hk, Nat.not_le.mp fun hcap => ?_⟩
  exact Outcome.mapErr_ne_panic (decompressedSize_ne_panic be hcap name x) h

theorem Ratio.row_ne_panic : Ratio.row be (input, codec, extra) i ≠ .panic := by
  intro h
  rw [Ratio.row] at h
  obtain ⟨x, h⟩ := blob_bind_eq_panic hinput h rfl
  dsimp only at h
  obtain ⟨name, k, -, h⟩ := codec_bind_eq_panic hcodec hextra h
  exact Outcome.mapErr_ne_panic (ratio_ne_panic be name x _) h

end Rows

end VgiCompress
