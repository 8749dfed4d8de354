import VgiCompress.Stored

/-!
# Calls that come to the same

Two ways to write one query. `decompress_auto` is `decompress` with the
codec column that `detect_codec` answers with, error texts apart
(`auto_is_detect_then_decompress`). And a call under larger caps, wherever
they come from, is the call it was, unless that one was refused as too
large (`raising_the_configured_cap`): no row below the refused one is
looked at before the cap is raised.
-/

namespace VgiCompress

open RustStd

/-! ## Detect, then decompress -/

/-- The text `decompress_auto` has for a codec that is not known. -/
def asNoMagic (e : RpcError) : RpcError :=
  if e = codecErr (.unknownCodec "unknown") then codecErr .noMagic else e

theorem head?_append_of {s : String} {a : Char} (h : s.toList.head? = some a) (t : String) :
    (s ++ t).toList.head? = some a := by
  rw [String.toList_append, List.head?_append, h]
  rfl

/-- Only a text that begins like "unknown" is replaced. -/
theorem asNoMagic_valueError {text : String} {a : Char} (h : text.toList.head? = some a)
    (ha : a ≠ 'u') : asNoMagic (.valueError text) = .valueError text := by
  refine if_neg fun heq => ha ?_
  rw [RpcError.valueError.inj heq] at h
  exact (Option.some.inj h).symm

theorem asNoMagic_decodeFault {cap : UInt64} {e : CodecError} (h : DecodeFault cap e) :
    asNoMagic (codecErr e) = codecErr e := by
  rcases h with rfl | ⟨why, rfl⟩
  · have hhead : ("output exceeds max_output_bytes (" ++ toString cap ++ ")").toList.head?
        = some 'o' := head?_append_of (head?_append_of rfl _) _
    exact asNoMagic_valueError hhead (by decide)
  · have hhead : ("corrupt or truncated input: " ++ why).toList.head? = some 'c' :=
      head?_append_of rfl _
    exact asNoMagic_valueError hhead (by decide)

section Auto

variable {be : Backends} {host : Host} {input codec : ArrayRef} {extra : Option ArrayRef} {i : Nat}

theorem decompressAuto_eq_decompress (x : Bytes) (cap : UInt64) :
    (decompressAuto be x cap).mapErr codecErr =
      ((decompress be ((detectCodec be x).getD "unknown") x cap).mapErr codecErr).mapErr
        asNoMagic := by
  rw [decompressAuto, detectCodec]
  cases detect be x with
  | none => rw [Option.map_none, Option.getD_none, decompress_of_err (by rfl)]; rfl
  | some c =>
      rw [Option.map_some, Option.getD_some, decompress_of_parse c.parse_name]
      dsimp only
      cases h : c.decompress be x cap with
      | ok v => rfl
      | err e => exact congrArg Outcome.err (asNoMagic_decodeFault (Codec.decompress_eq_err h)).symm
      | panic => rfl

theorem optIntVal_mapErr : (optIntVal extra i).mapErr asNoMagic = optIntVal extra i := by
  cases h : optIntVal extra i with
  | ok k => rfl
  | panic => rfl
  | err e =>
      obtain ⟨col, -, hint⟩ := optIntVal_eq_err h
      obtain ⟨-, -, rfl⟩ := intVal_eq_err hint
      have hhead : ("expected an integer (level / max_output_bytes) argument, got "
          ++ col.dataType.debug).toList.head? = some 'e' := head?_append_of rfl _
      exact congrArg Outcome.err (asNoMagic_valueError hhead (by decide))

/-- A row under the codec that its bytes tell. -/
theorem DecompressAuto.row_eq_decompress {p : Option Bytes} (hblob : blobBytes input i = .ok p)
    (hname : textStr codec i = .ok (p.map fun x => (detectCodec be x).getD "unknown"))
    (params : ProcessParams .binary) :
    DecompressAuto.row be host params (input, extra) i =
      (Decompress.row be host params (input, codec, extra) i).mapErr asNoMagic := by
  cases p with
  | none => simp only [DecompressAuto.row, Decompress.row, hblob, Outcome.ok_bind]; rfl
  | some x =>
      have hcodec := requireCodec_eq_ok.mpr hname
      simp only [DecompressAuto.row, Decompress.row, hblob, hcodec, Outcome.ok_bind,
        Outcome.mapErr_bind, optIntVal_mapErr, decompressAuto_eq_decompress, Outcome.pure_eq,
        Outcome.mapErr_ok]

theorem columnIf_cases (withExtra : Bool) (b : RecordBatch) (k : Nat) :
    (∃ extra, columnIf withExtra b k = .ok extra) ∨ columnIf withExtra b k = .panic := by
  cases withExtra with
  | false => exact .inl ⟨none, rfl⟩
  | true =>
      rw [columnIf, if_pos rfl, RecordBatch.column]
      cases b.columns[k]? with
      | none => exact .inr rfl
      | some col => exact .inl ⟨some col, rfl⟩

theorem mapErr_answer {bound : DataType} (f : RpcError → RpcError)
    (weight : Option bound.Val → Nat) (limit : Nat) (vs : List (Option bound.Val)) :
    (answer weight limit vs).mapErr f = answer weight limit vs := by
  rw [answer]
  split <;> rfl

/-- **`decompress_auto` is `detect_codec`, then `decompress`**, in both
overloads and on every batch whose codecs were told, but for the text of
the error on a row with no known codec. -/
theorem auto_is_detect_then_decompress {host₀ : Host} {pd : ProcessParams .utf8}
    {b b' names : RecordBatch} (hdetect : DetectCodec.process be host₀ pd b = .ok names)
    {self : DecompressAuto} (hinput : b'.column 0 = b.column 0)
    (hnames : b'.column 1 = names.column 0)
    (hcaps : columnIf self.withCap b' 2 = columnIf self.withCap b 1)
    (params : ProcessParams .binary) :
    self.process be host params b =
      (Decompress.process be host ⟨self.withCap⟩ params b').mapErr asNoMagic := by
  obtain ⟨input, vs, hcol, hrows, rfl⟩ := processRows_eq_ok stringArray_builds hdetect
  have hcol : b.column 0 = .ok input := hcol
  have hcodec : b'.column 1 = .ok ⟨.utf8, vs⟩ := hnames
  rw [hcol] at hinput
  have hnum : b'.numRows = b.numRows := by
    rw [← RecordBatch.len_of_column hinput, RecordBatch.len_of_column hcol]
  rw [DecompressAuto.process, Decompress.process, processRows_answer binaryArray_builds,
    processRows_answer binaryArray_builds, blobArgs, blobCodecArgs, hcol, hinput, hcodec, hcaps,
    hnum]
  rcases columnIf_cases self.withCap b 1 with ⟨extra, hextra⟩ | hpanic
  · rw [hextra]
    simp only [Outcome.ok_bind, Outcome.pure_eq, Outcome.mapErr_bind, mapErr_answer]
    rw [← Outcome.sequence_map_mapErr, List.map_map]
    refine congrArg (Outcome.sequence · >>= _) (List.map_congr_left fun i hi => ?_)
    obtain ⟨v, hget, hrow⟩ := get_of_rows hrows (List.mem_range.mp hi)
    obtain ⟨p, hblob, hv⟩ := Outcome.bind_eq_ok.mp hrow
    obtain rfl := Outcome.ok.inj hv
    refine DecompressAuto.row_eq_decompress hblob ?_ params
    rw [textStr, ArrayRef.cell?]
    simp only [hget]
    cases p <;> rfl
  · rw [hpanic]
    rfl

end Auto

/-- The gzip stream of `"a"` above a byte of no codec, each with the codec
that `detect_codec` tells. -/
def Sample.toldRows : RecordBatch where
  columns := [⟨.binary, [some Sample.gzip, some [0x00]]⟩, ⟨.utf8, [some "gzip", some "unknown"]⟩]
  numRows := 2
  lengths := by simp [ArrayRef.len]

/-- `auto_is_detect_then_decompress` on these rows. -/
theorem auto_is_detect_then_decompress_sample :
    DecompressAuto.process Sample.build Sample.host ⟨false⟩ (Sample.params .binary)
        Sample.toldRows
      = (Decompress.process Sample.build Sample.host ⟨false⟩ (Sample.params .binary)
          Sample.toldRows).mapErr asNoMagic := by
  have hdetect : DetectCodec.process Sample.build Sample.host (Sample.params .utf8)
      Sample.toldRows = .ok (.single ⟨.utf8, [some "gzip", some "unknown"]⟩) := rfl
  exact auto_is_detect_then_decompress hdetect rfl rfl rfl (Sample.params .binary)

/-! ## Larger caps -/

section Raise

variable {be : Backends} {host₁ host₂ : Host} {params₁ params₂ : ProcessParams .binary}

/-- The error of a row that its cap refused. -/
def SaysTooLarge (e : RpcError) : Prop := ∃ cap, e = codecErr (.outputTooLarge cap)

/-- Every row's cap is at least what it was. -/
def CapsRaised (host₁ host₂ : Host) (params₁ params₂ : ProcessParams .binary) : Prop :=
  ∀ k, resolveCap host₁.env k params₁ ≤ resolveCap host₂.env k params₂

/-- A larger setting raises the cap of every row that names none itself. -/
theorem CapsRaised.of_setting {host : Host} {v₁ v₂ : Int64}
    (h₁ : params₁.settings "compress_max_output_bytes" = some v₁)
    (h₂ : params₂.settings "compress_max_output_bytes" = some v₂) (hpos : 0 < v₁) (hle : v₁ ≤ v₂) :
    CapsRaised host host params₁ params₂ := by
  have hpos₂ : 0 < v₂ := Int64.lt_of_lt_of_le hpos hle
  intro k
  rw [resolveCap, resolveCap, h₁, h₂]
  cases positive k with
  | some v => exact UInt64.le_refl v
  | none =>
      simp only [positive, if_pos hpos, if_pos hpos₂]
      exact Int64.toUInt64_le (Int64.le_of_lt hpos) hle

/-- A decode under a larger cap, as the row sees it. -/
theorem mapErr_codecErr_raise {res₁ res₂ : Outcome CodecError Bytes} {cap : UInt64}
    (h : res₁ = .err (.outputTooLarge cap) ∨ res₂ = res₁) :
    (∃ e, SaysTooLarge e
        ∧ (res₁.mapErr codecErr >>= fun plain => pure (some plain)) = .err e)
      ∨ (res₂.mapErr codecErr >>= fun plain => pure (some plain))
        = (res₁.mapErr codecErr >>= fun plain => pure (some plain)) := by
  rcases h with rfl | rfl
  · exact .inl ⟨_, ⟨cap, rfl⟩, rfl⟩
  · exact .inr rfl

theorem decompress_raise (hscript : be.lzmaRs.IsScripted) (name : String) (x : Bytes)
    {c₁ c₂ : UInt64} (h : c₁ ≤ c₂) :
    decompress be name x c₁ = .err (.outputTooLarge c₁)
      ∨ decompress be name x c₂ = decompress be name x c₁ := by
  rcases Codec.parse_cases name with ⟨c, hc⟩ | hc
  · rw [decompress_of_parse hc, decompress_of_parse hc]
    exact c.decompress_mono hscript x h
  · rw [decompress_of_err hc, decompress_of_err hc]
    exact .inr rfl

theorem decompressAuto_raise (hscript : be.lzmaRs.IsScripted) (x : Bytes) {c₁ c₂ : UInt64}
    (h : c₁ ≤ c₂) :
    decompressAuto be x c₁ = .err (.outputTooLarge c₁)
      ∨ decompressAuto be x c₂ = decompressAuto be x c₁ := by
  rw [decompressAuto, decompressAuto]
  cases detect be x with
  | some c => exact c.decompress_mono hscript x h
  | none => exact .inr rfl

theorem Decompress.row_raise (hscript : be.lzmaRs.IsScripted)
    (hcaps : CapsRaised host₁ host₂ params₁ params₂)
    (args : ArrayRef × ArrayRef × Option ArrayRef) (i : Nat) :
    (∃ e, SaysTooLarge e ∧ Decompress.row be host₁ params₁ args i = .err e)
      ∨ Decompress.row be host₂ params₂ args i = Decompress.row be host₁ params₁ args i := by
  obtain ⟨input, codec, extra⟩ := args
  rw [Decompress.row, Decompress.row]
  cases blobBytes input i with
  | err e => exact .inr rfl
  | panic => exact .inr rfl
  | ok payload =>
      cases payload with
      | none => exact .inr rfl
      | some x =>
          cases requireCodec codec i with
          | err e => exact .inr rfl
          | panic => exact .inr rfl
          | ok name =>
              cases optIntVal extra i with
              | err e => exact .inr rfl
              | panic => exact .inr rfl
              | ok k =>
                  simp only [Outcome.ok_bind]
                  exact mapErr_codecErr_raise (decompress_raise hscript name x (hcaps k))

theorem DecompressAuto.row_raise (hscript : be.lzmaRs.IsScripted)
    (hcaps : CapsRaised host₁ host₂ params₁ params₂) (args : ArrayRef × Option ArrayRef)
    (i : Nat) :
    (∃ e, SaysTooLarge e ∧ DecompressAuto.row be host₁ params₁ args i = .err e)
      ∨ DecompressAuto.row be host₂ params₂ args i
        = DecompressAuto.row be host₁ params₁ args i := by
  obtain ⟨input, extra⟩ := args
  rw [DecompressAuto.row, DecompressAuto.row]
  cases blobBytes input i with
  | err e => exact .inr rfl
  | panic => exact .inr rfl
  | ok payload =>
      cases payload with
      | none => exact .inr rfl
      | some x =>
          cases optIntVal extra i with
          | err e => exact .inr rfl
          | panic => exact .inr rfl
          | ok k =>
              simp only [Outcome.ok_bind]
              exact mapErr_codecErr_raise (decompressAuto_raise hscript x (hcaps k))

/-- The call was refused for the cap of a row, or a larger cap does nothing
to it. -/
theorem processRows_raise {κ : Type} {arguments : RecordBatch → Outcome RpcError κ}
    {row₁ row₂ : κ → Nat → Outcome RpcError (Option Bytes)} {b : RecordBatch}
    (hrow : ∀ args i, (∃ e, SaysTooLarge e ∧ row₁ args i = .err e) ∨ row₂ args i = row₁ args i) :
    (∃ e, SaysTooLarge e
        ∧ processRows host₁ params₁ arguments row₁ binaryArray b = .err e)
      ∨ processRows host₂ params₂ arguments row₂ binaryArray b
        = processRows host₁ params₁ arguments row₁ binaryArray b := by
  rw [processRows_answer binaryArray_builds, processRows_answer binaryArray_builds]
  cases arguments b with
  | err e => exact .inr rfl
  | panic => exact .inr rfl
  | ok args =>
      rw [Outcome.ok_bind, Outcome.ok_bind]
      rcases Outcome.sequence_err_or_eq fun i _ => hrow args i with ⟨e, he, hseq⟩ | hseq
      · exact .inl ⟨e, he, by rw [hseq, Outcome.err_bind]⟩
      · exact .inr (by rw [hseq])

/-- **A larger cap changes no call but one that was refused for a cap**,
wherever the caps come from and whatever the batch holds. -/
theorem raising_the_configured_cap (hscript : be.lzmaRs.IsScripted)
    (hcaps : CapsRaised host₁ host₂ params₁ params₂) (b : RecordBatch) :
    (∀ self : Decompress,
      (∃ e, SaysTooLarge e ∧ self.process be host₁ params₁ b = .err e)
        ∨ self.process be host₂ params₂ b = self.process be host₁ params₁ b)
    ∧ ∀ self : DecompressAuto,
      (∃ e, SaysTooLarge e ∧ self.process be host₁ params₁ b = .err e)
        ∨ self.process be host₂ params₂ b = self.process be host₁ params₁ b := by
  constructor
  · intro self
    exact processRows_raise (Decompress.row_raise hscript hcaps)
  · intro self
    exact processRows_raise (DecompressAuto.row_raise hscript hcaps)

end Raise

/-- `raising_the_configured_cap` from a setting of one byte to one of two. -/
theorem raising_the_configured_cap_sample :
    Decompress.process Sample.build Sample.host ⟨false⟩ ⟨fun _ => some 2, _, rfl⟩ Sample.gzipRows
      = .ok (.single ⟨.binary, [some [0x61], none]⟩) := by
  have hcaps : CapsRaised Sample.host Sample.host ⟨fun _ => some 1, _, rfl⟩
      ⟨fun _ => some 2, _, rfl⟩ := .of_setting rfl rfl (by decide) (by decide)
  have hone : Decompress.process Sample.build Sample.host ⟨false⟩ ⟨fun _ => some 1, _, rfl⟩
      Sample.gzipRows = .ok (.single ⟨.binary, [some [0x61], none]⟩) := rfl
  rcases (raising_the_configured_cap Sample.isScripted hcaps Sample.gzipRows).1 ⟨false⟩ with
    ⟨e, -, he⟩ | h
  · rw [hone] at he
    cases he
  · exact h.trans hone

end VgiCompress
