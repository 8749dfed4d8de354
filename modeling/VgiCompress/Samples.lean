import VgiCompress.Decode

/-!
# A build that knows three streams of every format

A concrete `Backends`, so that an assumption on the crates is known to be
satisfiable and a general result can be run. Its encoders know the
payloads `"a"`, `""` and `"abcabc"` and refuse the rest; its decoders know
one stream of each and report everything else as malformed. Those that
stop at the end of a stream, whatever follows, do so here.
`lz4_block`, whose encoder cannot refuse, makes blocks of literals only.
-/

namespace VgiCompress

open RustStd

namespace Sample

/-- The payload, `"a"`. -/
def payload : Bytes := [0x61]

/-- A payload that decoders return in several chunks, `"abcabc"`. -/
def word : Bytes := [0x61, 0x62, 0x63, 0x61, 0x62, 0x63]

def zstd : Bytes := [0x28, 0xb5, 0x2f, 0xfd, 0x20, 0x01, 0x09, 0x00, 0x00, 0x61]

def deflate : Bytes := [0x4b, 0x04, 0x00]

def gzip : Bytes :=
  [0x1f, 0x8b, 0x08, 0x00, 0x00, 0x00, 0x00, 0x00, 0x00, 0xff, 0x4b, 0x04, 0x00,
    0x43, 0xbe, 0xb7, 0xe8, 0x01, 0x00, 0x00, 0x00]

def zlib : Bytes := [0x78, 0x9c, 0x4b, 0x04, 0x00, 0x00, 0x62, 0x00, 0x62]

def brotli : Bytes := [0x0b, 0x00, 0x80, 0x61, 0x03]

def lz4 : Bytes :=
  [0x04, 0x22, 0x4d, 0x18, 0x60, 0x40, 0x82, 0x01, 0x00, 0x00, 0x80, 0x61,
    0x00, 0x00, 0x00, 0x00]

def snappy : Bytes :=
  [0xff, 0x06, 0x00, 0x00, 0x73, 0x4e, 0x61, 0x50, 0x70, 0x59, 0x01, 0x05, 0x00, 0x00,
    0x78, 0x6e, 0xe4, 0x28, 0x61]

def snappyRaw : Bytes := [0x01, 0x00, 0x61]

def xz : Bytes :=
  [0xfd, 0x37, 0x7a, 0x58, 0x5a, 0x00, 0x00, 0x00, 0xff, 0x12, 0xd9, 0x41, 0x02, 0x00,
    0x21, 0x01, 0x16, 0x00, 0x00, 0x00, 0x74, 0x2f, 0xe5, 0xa3, 0x01, 0x00, 0x00, 0x61,
    0x00, 0x00, 0x00, 0x00, 0x00, 0x01, 0x11, 0x01, 0xad, 0xa6, 0x58, 0x04, 0x06, 0x72,
    0x9e, 0x7a, 0x01, 0x00, 0x00, 0x00, 0x00, 0x00, 0x59, 0x5a]

def lzma : Bytes :=
  [0x5d, 0x00, 0x00, 0x80, 0x00, 0xff, 0xff, 0xff, 0xff, 0xff, 0xff, 0xff, 0xff, 0x00,
    0x30, 0xc1, 0xfb, 0xff, 0xff, 0xff, 0xe0, 0x00, 0x00, 0x00]

def bzip2 : Bytes :=
  [0x42, 0x5a, 0x68, 0x39, 0x31, 0x41, 0x59, 0x26, 0x53, 0x59, 0x19, 0x93, 0x9b, 0x6b,
    0x00, 0x00, 0x00, 0x01, 0x00, 0x20, 0x00, 0x20, 0x00, 0x21, 0x18, 0x46, 0x82, 0xee,
    0x48, 0xa7, 0x0a, 0x12, 0x03, 0x32, 0x73, 0x6d, 0x60]

/-- `"a"` again, with its size in the header and no end marker. -/
def lzmaSized : Bytes :=
  [0x5d, 0x00, 0x00, 0x80, 0x00, 0x01, 0x00, 0x00, 0x00, 0x00, 0x00, 0x00, 0x00, 0x00, 0x30,
    0x7f, 0xfc, 0x00, 0x00]

/-- Payloads, each with a stream of it. -/
abbrev Table := List (Bytes × Bytes)

def zstdTable : Table :=
  [(payload, zstd),
    ([], [0x28, 0xb5, 0x2f, 0xfd, 0x20, 0x00, 0x01, 0x00, 0x00]),
    (word, [0x28, 0xb5, 0x2f, 0xfd, 0x20, 0x06, 0x31, 0x00, 0x00, 0x61, 0x62, 0x63, 0x61, 0x62,
      0x63])]

def gzipTable : Table :=
  [(payload, gzip),
    ([], [0x1f, 0x8b, 0x08, 0x00, 0x00, 0x00, 0x00, 0x00, 0x00, 0xff, 0x03, 0x00, 0x00, 0x00, 0x00,
      0x00, 0x00, 0x00, 0x00, 0x00]),
    (word, [0x1f, 0x8b, 0x08, 0x00, 0x00, 0x00, 0x00, 0x00, 0x00, 0xff, 0x4b, 0x4c, 0x4a, 0x4e,
      0x4c, 0x4a, 0x06, 0x00, 0x4c, 0x99, 0x6e, 0x72, 0x06, 0x00, 0x00, 0x00])]

def zlibTable : Table :=
  [(payload, zlib),
    ([], [0x78, 0x9c, 0x03, 0x00, 0x00, 0x00, 0x00, 0x01]),
    (word, [0x78, 0x9c, 0x4b, 0x4c, 0x4a, 0x4e, 0x4c, 0x4a, 0x06, 0x00, 0x08, 0x0c, 0x02, 0x4d])]

def deflateTable : Table :=
  [(payload, deflate),
    ([], [0x03, 0x00]),
    (word, [0x4b, 0x4c, 0x4a, 0x4e, 0x4c, 0x4a, 0x06, 0x00])]

def brotliTable : Table :=
  [(payload, brotli),
    ([], [0x3b]),
    (word, [0x8b, 0x02, 0x80, 0x61, 0x62, 0x63, 0x61, 0x62, 0x63, 0x03])]

def lz4Table : Table :=
  [(payload, lz4),
    ([], [0x04, 0x22, 0x4d, 0x18, 0x60, 0x40, 0x82, 0x00, 0x00, 0x00, 0x00]),
    (word, [0x04, 0x22, 0x4d, 0x18, 0x60, 0x40, 0x82, 0x06, 0x00, 0x00, 0x80, 0x61, 0x62, 0x63,
      0x61, 0x62, 0x63, 0x00, 0x00, 0x00, 0x00])]

def snappyTable : Table :=
  [(payload, snappy),
    ([], []),
    (word, [0xff, 0x06, 0x00, 0x00, 0x73, 0x4e, 0x61, 0x50, 0x70, 0x59, 0x01, 0x0a, 0x00, 0x00,
      0x56, 0x3a, 0x1b, 0xac, 0x61, 0x62, 0x63, 0x61, 0x62, 0x63])]

def snappyRawTable : Table :=
  [(payload, snappyRaw),
    ([], [0x00]),
    (word, [0x06, 0x14, 0x61, 0x62, 0x63, 0x61, 0x62, 0x63])]

def xzTable : Table :=
  [(payload, xz),
    ([], [0xfd, 0x37, 0x7a, 0x58, 0x5a, 0x00, 0x00, 0x00, 0xff, 0x12, 0xd9, 0x41, 0x02, 0x00, 0x21,
      0x01, 0x16, 0x00, 0x00, 0x00, 0x74, 0x2f, 0xe5, 0xa3, 0x00, 0x00, 0x00, 0x00, 0x00, 0x01,
      0x0d, 0x00, 0x66, 0xcb, 0x28, 0x95, 0x06, 0x72, 0x9e, 0x7a, 0x01, 0x00, 0x00, 0x00, 0x00,
      0x00, 0x59, 0x5a]),
    (word, [0xfd, 0x37, 0x7a, 0x58, 0x5a, 0x00, 0x00, 0x00, 0xff, 0x12, 0xd9, 0x41, 0x02, 0x00,
      0x21, 0x01, 0x16, 0x00, 0x00, 0x00, 0x74, 0x2f, 0xe5, 0xa3, 0x01, 0x00, 0x05, 0x61, 0x62,
      0x63, 0x61, 0x62, 0x63, 0x00, 0x00, 0x00, 0x00, 0x01, 0x16, 0x06, 0xc9, 0xa5, 0x7d, 0xd5,
      0x06, 0x72, 0x9e, 0x7a, 0x01, 0x00, 0x00, 0x00, 0x00, 0x00, 0x59, 0x5a])]

def lzmaTable : Table :=
  [(payload, lzma),
    ([], [0x5d, 0x00, 0x00, 0x80, 0x00, 0xff, 0xff, 0xff, 0xff, 0xff, 0xff, 0xff, 0xff, 0x00, 0x83,
      0xff, 0xfb, 0xff, 0xff, 0xc0, 0x00, 0x00, 0x00]),
    (word, [0x5d, 0x00, 0x00, 0x80, 0x00, 0xff, 0xff, 0xff, 0xff, 0xff, 0xff, 0xff, 0xff, 0x00,
      0x30, 0x98, 0x88, 0x97, 0xea, 0xab, 0xe6, 0xe1, 0x1b, 0x51, 0xff, 0xfa, 0x30, 0x40, 0x00])]

def bzip2Table : Table :=
  [(payload, bzip2),
    ([], [0x42, 0x5a, 0x68, 0x39, 0x17, 0x72, 0x45, 0x38, 0x50, 0x90, 0x00, 0x00, 0x00, 0x00]),
    (word, [0x42, 0x5a, 0x68, 0x39, 0x31, 0x41, 0x59, 0x26, 0x53, 0x59, 0x86, 0x45, 0x44, 0x33,
      0x00, 0x00, 0x00, 0x81, 0x00, 0x38, 0x00, 0x20, 0x00, 0x21, 0x26, 0x41, 0x98, 0x84, 0x8e,
      0x2e, 0xe4, 0x8a, 0x70, 0xa1, 0x21, 0x0c, 0x8a, 0x88, 0x66])]

/-- An encoder that knows the payloads of a table. -/
def encode : Table → Bytes → Except String Bytes
  | [], _ => .error "unknown payload"
  | (x, stream) :: table, input => if input = x then .ok stream else encode table input

def encoder (table : Table) : Encoder where
  writeAll _ := .ok ()
  finish := encode table

/-- The payload of the first stream that is as asked. -/
def decode (asked : Bytes → Bool) : Table → Option Bytes
  | [] => none
  | (x, stream) :: table => if asked stream then some x else decode asked table

/-- Decoders return two bytes at a time. -/
def chunks : Bytes → List Bytes
  | [] => []
  | [b] => [[b]]
  | b :: b' :: rest => [b, b'] :: chunks rest

def reads : Option Bytes → Reads UInt8
  | some x => .deliver (chunks x) (.ok ())
  | none => [.error ⟨.other, "invalid stream"⟩]

/-- A decoder that reads its input to the end. -/
def whole (table : Table) (input : Bytes) : Reads UInt8 := reads (decode (· = input) table)

/-- A decoder that stops after the first stream. -/
def first (table : Table) (input : Bytes) : Reads UInt8 :=
  reads (decode (·.isPrefixOf input) table)

/-- A decoder that writes its output into a sink. -/
def driven (table : Table) (input : Bytes) : Writes String UInt8 :=
  match decode (· = input) table with
  | some x => .script "write failed" (chunks x) (.ok ())
  | none => .done (.error "invalid stream")

/-- A decoder of a whole block. -/
def known (table : Table) (input : Bytes) : Except String Bytes :=
  match decode (· = input) table with
  | some x => .ok x
  | none => .error "invalid block"

/-- A decoder of its length, whatever is behind it. -/
def knownLen (table : Table) (input : Bytes) : Except String Nat :=
  match decode (·.isPrefixOf input) table with
  | some x => .ok x.length
  | none => .error "invalid header"

/-- A literal count from 15 on goes on after the token. -/
def literalCount (n : Nat) : Bytes :=
  if n < 15 then [.ofNat (16 * n)]
  else 0xf0 :: (List.replicate ((n - 15) / 255) 0xff ++ [.ofNat ((n - 15) % 255)])

/-- A block of literals only, below its size. -/
def lz4Block (input : Bytes) : Bytes :=
  u32ToLeBytes input.length ++ (literalCount input.length ++ input)

def lz4Unblock (input : Bytes) : Except String Bytes :=
  match Lz4.declaredSize input with
  | some n =>
      let v := input.drop (input.length - n.toNat)
      if input = lz4Block v ∧ v.length = n.toNat then .ok v else .error "invalid block"
  | none => .error "invalid block"

/-- The build. -/
def build : Backends where
  zstd :=
    { encodeAll := fun x _ => encode zstdTable x
      decoder := fun s => .ok (whole zstdTable s) }
  flate2 :=
    { gzEncoder := fun _ => encoder gzipTable
      zlibEncoder := fun _ => encoder zlibTable
      deflateEncoder := fun _ => encoder deflateTable
      gzDecoder := first gzipTable
      zlibDecoder := first zlibTable
      deflateDecoder := first deflateTable }
  brotli :=
    { compressorWriter := fun _ _ _ => encoder brotliTable
      decompressor := fun s _ => first brotliTable s }
  lz4Flex :=
    { frameEncoder := encoder lz4Table
      frameDecoder := first lz4Table
      compressPrependSize := lz4Block
      decompressSizePrepended := lz4Unblock }
  snap :=
    { frameEncoder := encoder snappyTable
      frameDecoder := whole snappyTable
      compressVec := encode snappyRawTable
      decompressLen := knownLen snappyRawTable
      decompressVec := known snappyRawTable }
  lzmaRs :=
    { xzCompress := encode xzTable
      xzDecompress := driven xzTable
      lzmaCompress := encode lzmaTable
      -- past the size it was told, the decoder looks at nothing
      lzmaDecompress := fun s =>
        if lzmaSized.isPrefixOf s then .script "write failed" [payload] (.ok ())
        else driven lzmaTable s }
  liblzma :=
    { xzEncoder := fun x _ => encode xzTable x
      xzDecoder := first xzTable }
  bzip2 :=
    { bzEncoder := fun _ => encoder bzip2Table
      bzDecoder := first bzip2Table }
  xzBackend := .lzmaRs

/-! ## What the build knows -/

/-- No stream is that of two payloads. -/
def Distinct (table : Table) : Prop := ∀ p ∈ table, ∀ q ∈ table, p.2 = q.2 → p = q

/-- No stream starts with another. -/
def PrefixFree (table : Table) : Prop := ∀ p ∈ table, ∀ q ∈ table, p.2 <+: q.2 → p = q

instance (table : Table) : Decidable (Distinct table) :=
  inferInstanceAs (Decidable (∀ p ∈ table, ∀ q ∈ table, p.2 = q.2 → p = q))

instance (table : Table) : Decidable (PrefixFree table) :=
  inferInstanceAs (Decidable (∀ p ∈ table, ∀ q ∈ table, p.2 <+: q.2 → p = q))

theorem PrefixFree.distinct {table : Table} (h : PrefixFree table) : Distinct table :=
  fun p hp q hq heq => h p hp q hq (heq ▸ List.prefix_refl p.2)

theorem mem_of_encode {table : Table} {x s : Bytes} (h : encode table x = .ok s) :
    (x, s) ∈ table := by
  induction table with
  | nil => cases h
  | cons p table ih =>
      rw [encode] at h
      split at h
      · next hx =>
          obtain rfl := Except.ok.inj h
          rw [hx]
          exact List.mem_cons_self
      · exact List.mem_cons_of_mem p (ih h)

/-- A decoder finds a stream that is as asked, and there is no other
payload to find. -/
theorem decode_eq_some {asked : Bytes → Bool} {table : Table} {x : Bytes}
    (honly : ∀ p ∈ table, ∀ q ∈ table, asked p.2 → asked q.2 → p = q) :
    decode asked table = some x ↔ ∃ s, (x, s) ∈ table ∧ asked s := by
  induction table with
  | nil => simp [decode]
  | cons p table ih =>
      rw [decode]
      split
      · next hp =>
          constructor
          · intro h
            obtain rfl := Option.some.inj h
            exact ⟨p.2, List.mem_cons_self, hp⟩
          · rintro ⟨s, hs, hasked⟩
            rw [honly p List.mem_cons_self (x, s) hs hp hasked]
      · next hp =>
          rw [ih fun q hq r hr => honly q (List.mem_cons_of_mem p hq) r (List.mem_cons_of_mem p hr)]
          constructor
          · rintro ⟨s, hs, hasked⟩
            exact ⟨s, List.mem_cons_of_mem p hs, hasked⟩
          · rintro ⟨s, hs, hasked⟩
            refine ⟨s, (List.mem_cons.mp hs).resolve_left ?_, hasked⟩
            rintro rfl
            exact hp hasked


theorem decode_whole {table : Table} (h : Distinct table) {input x : Bytes} :
    decode (· = input) table = some x ↔ (x, input) ∈ table := by
  rw [decode_eq_some]
  · simp
  · intro p hp q hq hpi hqi
    exact h p hp q hq (by simp_all)

theorem decode_first {table : Table} (h : PrefixFree table) {input x : Bytes} :
    decode (·.isPrefixOf input) table = some x ↔ ∃ s, (x, s) ∈ table ∧ s <+: input := by
  rw [decode_eq_some]
  · simp only [List.isPrefixOf_iff_prefix]
  · intro p hp q hq hpi hqi
    rcases List.prefix_or_prefix_of_prefix (List.isPrefixOf_iff_prefix.mp hpi)
      (List.isPrefixOf_iff_prefix.mp hqi) with hpq | hqp
    · exact h p hp q hq hpq
    · exact (h q hq p hp hqp).symm

theorem chunks_flatten (x : Bytes) : (chunks x).flatten = x := by
  fun_induction chunks x with
  | case1 => rfl
  | case2 b => rfl
  | case3 b b' rest ih => rw [List.flatten_cons, ih]; rfl

theorem chunks_short (x : Bytes) : ∀ d ∈ chunks x, d ≠ [] ∧ d.length ≤ 2 := by
  fun_induction chunks x with
  | case1 => simp
  | case2 b => simp
  | case3 b b' rest ih =>
      intro d hd
      rcases List.mem_cons.mp hd with rfl | hd
      · simp
      · exact ih d hd

theorem reads_delivers (x : Bytes) : Delivers (reads (some x)) (chunks x) (.ok ()) := by
  obtain ⟨hchunks, hending⟩ := Reads.deliver_ok fun d hd => (chunks_short x d hd).1
  exact ⟨hchunks, by rw [reads, hending]; rfl⟩

theorem whole_delivers {table : Table} (h : Distinct table) {x s : Bytes} (hs : (x, s) ∈ table) :
    Delivers (whole table s) (chunks x) (.ok ()) := by
  rw [whole, (decode_whole h).mpr hs]
  exact reads_delivers x

theorem first_delivers {table : Table} (h : PrefixFree table) {x s : Bytes}
    (hs : (x, s) ∈ table) (rest : Bytes) :
    Delivers (first table (s ++ rest)) (chunks x) (.ok ()) := by
  rw [first, (decode_first h).mpr ⟨s, hs, List.prefix_append s rest⟩]
  exact reads_delivers x

theorem first_stream {table : Table} (h : PrefixFree table) {x s : Bytes}
    (hs : (x, s) ∈ table) : Delivers (first table s) (chunks x) (.ok ()) := by
  have hdelivers := first_delivers h hs []
  rwa [List.append_nil] at hdelivers

theorem driven_scripts {table : Table} (h : Distinct table) {x s : Bytes}
    (hs : (x, s) ∈ table) : (driven table s).Scripted (chunks x) (.ok ()) := by
  rw [driven, (decode_whole h).mpr hs]
  exact Writes.scripted_script _ _ _

theorem declaredSize_lz4Block (x : Bytes) :
    ∃ n, Lz4.declaredSize (lz4Block x) = some n ∧ n.toNat = x.length % 2 ^ 32 :=
  ⟨_, rfl, by rw [UInt32.toNat_toUInt64, u32FromLeBytes_ofNat]⟩

theorem lz4Unblock_lz4Block {x : Bytes} (h : x.length < 2 ^ 32) :
    lz4Unblock (lz4Block x) = .ok x := by
  obtain ⟨n, hn, hlen⟩ := declaredSize_lz4Block x
  rw [Nat.mod_eq_of_lt h] at hlen
  have hdrop : (lz4Block x).drop ((lz4Block x).length - x.length) = x := by
    rw [lz4Block, ← List.append_assoc, List.length_append, Nat.add_sub_cancel,
      List.drop_left]
  rw [lz4Unblock, hn]
  simp only [hlen, hdrop, and_self, if_true]

theorem prefixBounds : build.lz4Flex.PrefixBounds := by
  intro input v n hv hn
  change lz4Unblock input = .ok v at hv
  rw [lz4Unblock, hn] at hv
  simp only at hv
  split at hv
  · next h =>
      obtain rfl := Except.ok.inj hv
      exact Nat.le_of_eq h.2
  · cases hv

theorem known_eq_ok {table : Table} (h : Distinct table) {input x : Bytes} :
    known table input = .ok x ↔ (x, input) ∈ table := by
  rw [← decode_whole h, known]
  cases decode (· = input) table with
  | none => simp
  | some y => simp

theorem knownLen_append {table : Table} (h : PrefixFree table) {x s : Bytes}
    (hs : (x, s) ∈ table) (rest : Bytes) : knownLen table (s ++ rest) = .ok x.length := by
  rw [knownLen, (decode_first h).mpr ⟨s, hs, List.prefix_append s rest⟩]

theorem knownLen_stream {table : Table} (h : PrefixFree table) {x s : Bytes}
    (hs : (x, s) ∈ table) : knownLen table s = .ok x.length := by
  have hlen := knownLen_append h hs []
  rwa [List.append_nil] at hlen

theorem lenExact : build.snap.LenExact := by
  intro input v n hv hn
  have hmem : (v, input) ∈ snappyRawTable := (known_eq_ok (by decide)).mp hv
  exact Except.ok.inj ((knownLen_stream (by decide) hmem).symm.trans hn)

theorem driven_scripted (table : Table) (input : Bytes) :
    ∃ ds res, (driven table input).Scripted ds res := by
  unfold driven
  split
  · exact ⟨_, _, Writes.scripted_script _ _ _⟩
  · exact ⟨_, _, .done _⟩

theorem isScripted : build.lzmaRs.IsScripted := by
  refine ⟨driven_scripted xzTable, fun input => ?_⟩
  change ∃ ds res, (if lzmaSized.isPrefixOf input then Writes.script "write failed" [payload] _
    else driven lzmaTable input).Scripted ds res
  split
  · exact ⟨_, _, Writes.scripted_script _ _ _⟩
  · exact driven_scripted lzmaTable input

end Sample

end VgiCompress
