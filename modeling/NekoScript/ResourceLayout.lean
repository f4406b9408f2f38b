import NekoScript.ResourceLookup
import Mathlib.Tactic

/-!
# Where resources lie in the payload

The blocks follow one another, each with a zero byte after it, and a row gives
the offset of its block as eight hexadecimal digits.  These are cut to 32 bits,
but before an offset grows that large, the text is too long for the engine.
-/

namespace NekoScript

open CSourceText

/-- The initialiser of `_NekoRes_Payload`, read as C text. -/
def payloadInitializer (code : List Char) : Option (List ℕ) :=
  readArray parseNumber "_NekoRes_Payload".toList (tokens code)

/-- The rows of `_NekoRes_Meta`, read as C text. -/
def metaInitializer (code : List Char) : Option (List NekoResMeta) :=
  readArray parseMeta "_NekoRes_Meta".toList (tokens code)

structure LaidOut (resources : List Resource) (payload : List ℕ)
    (rows : List NekoResMeta) : Prop where
  length : payload.length = (resources.map fun r => r.content.length + 1).sum
  bytes : ∀ value ∈ payload, value < 256
  count : rows.length = resources.length
  block : ∀ k (hk : k < resources.length) row, rows[k]? = some row →
    row.length = resources[k].content.length ∧
      (payload.drop row.offset).take row.length =
        resources[k].content.map UInt8.toNat
  terminator : ∀ row ∈ rows, payload[row.offset + row.length]? = some 0
  disjoint : ∀ (j k : ℕ) (first second : NekoResMeta), j < k → rows[j]? = some first →
    rows[k]? = some second → first.offset + first.length < second.offset

def TablesLaidOut (resources : List Resource) : Prop :=
  ∃ files payload rows, generate resources = some files ∧
    payloadInitializer files.code = some payload ∧
    metaInitializer files.code = some rows ∧ LaidOut resources payload rows

/-- The size of the first `k` blocks, each with its zero byte. -/
def blockOffset (resources : List Resource) (k : ℕ) : ℕ :=
  ((resources.take k).map fun r => r.content.length + 1).sum

theorem blockOffset_cons (r : Resource) (resources : List Resource) (k : ℕ) :
    blockOffset (r :: resources) (k + 1) =
      r.content.length + 1 + blockOffset resources k := by
  simp [blockOffset]

theorem blockOffset_succ
    (resources : List Resource) {k : ℕ} (hk : k < resources.length) :
    blockOffset resources (k + 1) =
      blockOffset resources k + (resources[k].content.length + 1) := by
  unfold blockOffset
  rw [List.take_succ_eq_append_getElem hk, List.map_append, List.sum_append]
  simp

theorem blockOffset_le
    (resources : List Resource) {j k : ℕ} (hle : j ≤ k) :
    blockOffset resources j ≤ blockOffset resources k := by
  have htaken : (resources.take j).Sublist (resources.take k) :=
    (List.take_prefix_take_left hle).sublist
  exact (htaken.map _).sum_le_sum fun _ _ => Nat.zero_le _

theorem getElem?_rowsFrom
    (offset : ℕ) (resources : List Resource) (k : ℕ) :
    (rowsFrom offset resources)[k]? =
      resources[k]?.map fun r => (offset + blockOffset resources k, r) := by
  induction resources generalizing offset k with
  | nil => simp [rowsFrom]
  | cons r resources ih =>
      cases k with
      | zero => simp [rowsFrom, blockOffset]
      | succ k =>
          rw [rowsFrom, List.getElem?_cons_succ, ih, List.getElem?_cons_succ,
            blockOffset_cons]
          simp only [Nat.add_assoc]

theorem length_payloadBytes (resources : List Resource) :
    (payloadBytes resources).length =
      (resources.map fun r => r.content.length + 1).sum := by
  unfold payloadBytes
  rw [List.length_flatMap]
  simp

/-- The payload around the block at `k`. -/
theorem payloadBytes_split
    (resources : List Resource) {k : ℕ} (hk : k < resources.length) :
    payloadBytes resources =
      payloadBytes (resources.take k) ++ (resources[k].content ++ [0] ++
        payloadBytes (resources.drop (k + 1))) := by
  have hsplit : resources =
      resources.take k ++ resources[k] :: resources.drop (k + 1) := by
    rw [List.getElem_cons_drop, List.take_append_drop]
  conv_lhs => rw [hsplit]
  unfold payloadBytes
  rw [List.flatMap_append, List.flatMap_cons]

theorem payloadBytes_at
    (resources : List Resource) {k : ℕ} (hk : k < resources.length) :
    ((payloadBytes resources).drop (blockOffset resources k)).take
        resources[k].content.length = resources[k].content ∧
      (payloadBytes resources)[blockOffset resources k +
        resources[k].content.length]? = some 0 := by
  have hbefore : (payloadBytes (resources.take k)).length =
      blockOffset resources k := length_payloadBytes _
  rw [payloadBytes_split resources hk, ← hbefore]
  constructor
  · rw [List.drop_left, List.append_assoc, List.take_left]
  · rw [List.getElem?_append_right (by omega), Nat.add_sub_cancel_left,
      List.append_assoc, List.getElem?_append_right le_rfl, Nat.sub_self]
    rfl

/-! ## Reading the tables -/

theorem metaInitializer_codeText
    {resources : List Resource} (hnames : ∀ r ∈ resources, IsWord r.name) :
    metaInitializer (codeText resources) =
      some ((rowsFrom 0 resources).map (rowMeta 0)) := by
  have hname : Token.word "_NekoRes_Meta".toList ∉ metaType := by decide
  unfold metaInitializer
  rw [tokens_codeText hnames]
  exact readArray_of_commas (rowTokens 0) (rowMeta 0)
    (fun row _ rest => parseMeta_rowTokens 0 row rest)
    (fun row _ => ⟨_, _, rfl, by decide⟩) "_NekoRes_Meta".toList hname _

theorem payloadInitializer_codeText
    {resources : List Resource} (hnames : ∀ r ∈ resources, IsWord r.name) :
    payloadInitializer (codeText resources) =
      some ((payloadBytes resources).map UInt8.toNat) := by
  have hname : Token.word "_NekoRes_Payload".toList ∉
      arrayTokens metaType "_NekoRes_Meta".toList
        ((rowsFrom 0 resources).flatMap fun row => rowTokens 0 row ++ [.symbol ','])
        payloadType := by
    apply word_notMem_arrayTokens (by decide) (by decide) _ (by decide)
    exact word_notMem_rowTokens (by decide) 0 (rowsFrom 0 resources)
  unfold payloadInitializer
  rw [tokens_codeText hnames, arrayTokens_arrayTokens]
  exact readArray_of_commas numberTokens UInt8.toNat
    (fun byte _ rest => parseNumber_word (integerLiteral_decimalDigits byte) rest)
    (fun byte _ => ⟨_, _, rfl, by simp⟩) "_NekoRes_Payload".toList hname []

/-- The row at `k`, with its numbers cut to 32 bits. -/
theorem getElem?_rows
    (resources : List Resource) (k : ℕ) :
    ((rowsFrom 0 resources).map (rowMeta 0))[k]? =
      resources[k]?.map fun r =>
        ⟨0, blockOffset resources k % 4294967296, r.content.length % 4294967296⟩ := by
  rw [List.getElem?_map, getElem?_rowsFrom, Option.map_map]
  congr 1
  funext r
  simp [rowMeta]

/-- In a payload of at most 2^32 bytes no offset and no length is cut. -/
theorem row_eq
    {resources : List Resource}
    (htotal : (resources.map fun r => r.content.length + 1).sum ≤ 2 ^ 32)
    {k : ℕ} {row : NekoResMeta}
    (hrow : ((rowsFrom 0 resources).map (rowMeta 0))[k]? = some row) :
    ∃ hk : k < resources.length, row.offset = blockOffset resources k ∧
      row.length = resources[k].content.length := by
  rw [getElem?_rows, Option.map_eq_some_iff] at hrow
  obtain ⟨r, hr, rfl⟩ := hrow
  obtain ⟨hk, rfl⟩ := List.getElem?_eq_some_iff.mp hr
  have hnext := blockOffset_succ resources hk
  have hend : blockOffset resources (k + 1) ≤ blockOffset resources resources.length :=
    blockOffset_le resources hk
  have hsum : blockOffset resources resources.length =
      (resources.map fun r => r.content.length + 1).sum := by
    unfold blockOffset
    rw [List.take_length]
  refine ⟨hk, ?_, ?_⟩
  · exact Nat.mod_eq_of_lt (by omega)
  · exact Nat.mod_eq_of_lt (by omega)

theorem length_payload_le_codeSize (resources : List Resource) :
    (resources.map fun r => r.content.length + 1).sum ≤ codeSize resources := by
  have hle : (resources.map fun r => r.content.length + 1).sum ≤
      (resources.map fun r => 2 * r.name.length + 5 * r.content.length +
        (r.content.length + 15) / 16 + 54).sum := by
    apply List.sum_le_sum
    intro r _
    omega
  unfold codeSize
  omega

theorem laidOut_of_size
    {resources : List Resource}
    (htotal : (resources.map fun r => r.content.length + 1).sum ≤ 2 ^ 32) :
    LaidOut resources ((payloadBytes resources).map UInt8.toNat)
      ((rowsFrom 0 resources).map (rowMeta 0)) := by
  constructor
  · rw [List.length_map, length_payloadBytes]
  · intro value hmem
    rw [List.mem_map] at hmem
    obtain ⟨byte, _, rfl⟩ := hmem
    exact byte.toNat_lt
  · have hrows := congrArg List.length (map_snd_rowsFrom 0 resources)
    rwa [List.length_map] at hrows ⊢
  · intro k hk row hrow
    obtain ⟨_, hoffset, hlength⟩ := row_eq htotal hrow
    refine ⟨hlength, ?_⟩
    rw [hoffset, hlength, ← List.map_drop, ← List.map_take,
      (payloadBytes_at resources hk).1]
  · intro row hmem
    obtain ⟨k, hrow⟩ := List.mem_iff_getElem?.mp hmem
    obtain ⟨hk, hoffset, hlength⟩ := row_eq htotal hrow
    rw [hoffset, hlength, List.getElem?_map, (payloadBytes_at resources hk).2]
    rfl
  · intro j k first second hlt hfirst hsecond
    obtain ⟨hj, hoffset, hlength⟩ := row_eq htotal hfirst
    obtain ⟨_, hoffset', _⟩ := row_eq htotal hsecond
    have hnext := blockOffset_succ resources hj
    have hle : blockOffset resources (j + 1) ≤ blockOffset resources k :=
      blockOffset_le resources hlt
    omega

/-- Whenever the code is not too long for a string of the engine, it is written,
and its tables give every block its place. -/
theorem tablesLaidOut_iff
    {resources : List Resource} (hnames : ∀ r ∈ resources, IsIdentifier r.name) :
    TablesLaidOut resources ↔ codeSize resources ≤ textLimit := by
  have hwords : ∀ r ∈ resources, IsWord r.name := fun r hmem => (hnames r hmem).word
  constructor
  · rintro ⟨files, payload, rows, hfiles, _⟩
    exact (of_generate hfiles).1
  · intro hfits
    have hpayload := length_payload_le_codeSize resources
    have hlimit : textLimit ≤ 2 ^ 32 := by decide
    exact ⟨_, _, _, generate_of_fits hfits, payloadInitializer_codeText hwords,
      metaInitializer_codeText hwords, laidOut_of_size (by omega)⟩

theorem isIdentifier_A : IsIdentifier ['A'] :=
  isIdentifier_of_all (by decide) (by decide) (by decide)

theorem isIdentifier_B : IsIdentifier ['B'] :=
  isIdentifier_of_all (by decide) (by decide) (by decide)

theorem tablesLaidOut_iff_two_blocks :
    codeSize [⟨['A'], [1, 0]⟩, ⟨['B'], []⟩] ≤ textLimit ∧
      TablesLaidOut [⟨['A'], [1, 0]⟩, ⟨['B'], []⟩] := by
  have hnames : ∀ r ∈ ([⟨['A'], [1, 0]⟩, ⟨['B'], []⟩] : List Resource),
      IsIdentifier r.name := by
    intro r hmem
    rw [List.mem_cons, List.mem_singleton] at hmem
    rcases hmem with rfl | rfl
    · exact isIdentifier_A
    · exact isIdentifier_B
  have hfits : codeSize [⟨['A'], [1, 0]⟩, ⟨['B'], []⟩] ≤ textLimit := by decide
  exact ⟨hfits, (tablesLaidOut_iff hnames).mpr hfits⟩

theorem not_tablesLaidOut_of_length
    {content : List UInt8} (hlength : content.length = 500000000) :
    (∀ r ∈ ([⟨['A'], content⟩] : List Resource), IsIdentifier r.name) ∧
      (([⟨['A'], content⟩] : List Resource).map fun r => r.content.length).sum < 2 ^ 32 ∧
      generate [⟨['A'], content⟩] = none ∧ ¬ TablesLaidOut [⟨['A'], content⟩] := by
  have hnone : generate [⟨['A'], content⟩] = none := by
    have hlong : textLimit < codeSize [⟨['A'], content⟩] := by
      have hlimit : textLimit = 0x7ffffffe := by decide
      rw [hlimit]
      simp only [codeSize, List.map_cons, List.map_nil, List.sum_cons, hlength]
      omega
    rw [generate_eq, limited_of_lt (by rwa [length_codeText]), Option.map_none]
  refine ⟨?_, ?_, hnone, ?_⟩
  · intro r hmem
    rw [List.mem_singleton.mp hmem]
    exact isIdentifier_A
  · simp only [List.map_cons, List.map_nil, List.sum_cons, List.sum_nil, hlength]
    omega
  · rintro ⟨files, payload, rows, hfiles, _⟩
    rw [hnone] at hfiles
    contradiction

/-- The code of 500 000 000 bytes would be longer than a string can be. -/
theorem not_tablesLaidOut_of_long_block :
    let resources : List Resource := [⟨['A'], List.replicate 500000000 0⟩]
    (∀ r ∈ resources, IsIdentifier r.name) ∧
      (resources.map fun r => r.content.length).sum < 2 ^ 32 ∧
      generate resources = none ∧ ¬ TablesLaidOut resources :=
  not_tablesLaidOut_of_length List.length_replicate

end NekoScript
