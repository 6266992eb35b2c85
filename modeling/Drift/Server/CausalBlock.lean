/-
  Causal blocks, and why chunking does not show in what they compute.

  A block is causal when the keys, the values and the outputs of a token depend on the tokens of its
  row up to it and on nothing else; the tokens before the input are handed over as past keys and
  values.  `CausalSpec` says what the block computes from a row of tokens, and `IsCausal` that a
  `forward` computes it from the past and the new tokens, however the row is cut into the two.

  `forwardChunked_causal` is the point: the loop of `_forward_chunked` over a causal block is causal
  with the same specification, for every chunk length.
-/
import Drift.Server.Backend

namespace Drift

variable {α δ : Type} [Zero α]

/-! ## The loop rule -/

/-- The tokens `lo:hi` of a tensor `[batch, seq, features]`. -/
theorem get_slice_tokens {t : Tensor α} {batch seqLen features lo hi i j h : Nat}
    (hshape : t.shape = [batch, seqLen, features]) (hlo : lo ≤ hi) (hhi : hi ≤ seqLen)
    (hi' : i < batch) (hj : j < hi - lo) (hh : h < features) :
    (t.slice 1 lo hi).get [i, j, h] = t.get [i, lo + j, h] := by
  have haxis : hi ≤ t.shape.getD 1 0 := by
    rw [hshape]
    exact hhi
  have hget := Tensor.get_slice [i, j, h] hlo haxis
    (by rw [hshape]; exact ⟨hi', hj, hh, trivial⟩)
  rw [Nat.add_comm lo j]
  exact hget

theorem shape_slice_tokens {t : Tensor α} {batch seqLen features lo hi : Nat}
    (hshape : t.shape = [batch, seqLen, features]) (hlo : lo ≤ hi) (hhi : hi ≤ seqLen) :
    (t.slice 1 lo hi).shape = [batch, hi - lo, features] := by
  rw [Tensor.shape_slice_of_le hlo (by rw [hshape]; exact hhi), hshape]
  rfl

/-- Storing the chunk `lo:hi` extends what the output holds from `lo` to `hi` tokens. -/
theorem storeChunk_spec (maxChunkLength : Nat) {batch seqLen features lo hi : Nat}
    {F : Nat → Nat → Nat → α} {chunk output : Tensor α} (hlo : lo < hi) (hhi : hi ≤ seqLen)
    (hend : hi = min (lo + maxChunkLength) seqLen)
    (hstart : seqLen ≤ maxChunkLength → lo = 0)
    (hchunk : chunk.shape = [batch, hi - lo, features])
    (hget : ∀ i j h, i < batch → j < hi - lo → h < features → chunk.get [i, j, h] = F i (lo + j) h)
    (houtput : output.shape = [batch, seqLen, features])
    (hdone : ∀ i j h, i < batch → j < lo → h < features → output.get [i, j, h] = F i j h) :
    ∃ output', storeChunk seqLen maxChunkLength lo chunk output = .ok output' ∧
      output'.shape = [batch, seqLen, features] ∧
      ∀ i j h, i < batch → j < hi → h < features → output'.get [i, j, h] = F i j h := by
  by_cases hlt : maxChunkLength < seqLen
  · have haxis : hi ≤ output.shape.getD 1 0 := by
      rw [houtput]
      exact hhi
    obtain ⟨output', hassign, hshape', hget'⟩ := Tensor.assignSlice_spec (Nat.le_of_lt hlo) haxis
      (show chunk.shape = output.shape.set 1 (hi - lo) by rw [hchunk, houtput]; rfl)
    have hstop : Tensor.assignSlice 1 lo ((lo + maxChunkLength : Nat) : Int) chunk output =
        Tensor.assignSlice 1 lo hi chunk output := by
      have haxis' : output.shape.getD 1 0 = seqLen := by rw [houtput]; rfl
      simp only [Tensor.assignSlice, Tensor.clampIndex_natCast, haxis', hend, Nat.min_assoc,
        Nat.min_self]
    refine ⟨output', ?_, hshape'.trans houtput, fun i j h hi' hj hh => ?_⟩
    · rw [storeChunk, if_pos hlt, hstop, hassign]
      rfl
    · have hix : InBounds output.shape [i, j, h] := by
        rw [houtput]
        exact ⟨hi', Nat.lt_of_lt_of_le hj hhi, hh, trivial⟩
      rw [hget' _ hix]
      by_cases hnew : lo ≤ j
      · rw [if_pos ⟨hnew, hj⟩]
        show chunk.get [i, j - lo, h] = F i j h
        rw [hget i (j - lo) h hi' (by omega) hh, Nat.add_sub_cancel' hnew]
      · rw [if_neg fun hin => hnew hin.1]
        exact hdone i j h hi' (by omega) hh
  · -- a single chunk is the output
    obtain rfl := hstart (by omega)
    have hfull : hi = seqLen := by omega
    subst hfull
    refine ⟨chunk, by rw [storeChunk, if_neg hlt], hchunk, fun i j h hi' hj hh => ?_⟩
    rw [hget i j h hi' hj hh, Nat.zero_add]

section Rule

variable {forward : ModuleForward δ α} {hiddenStates : Tensor α} {perLayerInput : Option (Tensor α)}
  {batch seqLen features maxChunkLength : Nat}

/-- The chunk that the loop cuts out ends with the input. -/
theorem cut_eq {t : Tensor α} {lo hi : Nat} (hseq : t.shape.getD 1 0 = seqLen)
    (hhi : hi = min (lo + maxChunkLength) seqLen) :
    t.slice 1 lo ((lo + maxChunkLength : Nat) : Int) = t.slice 1 lo hi := by
  rw [Tensor.slice_min, hseq, hhi]

theorem map_cut_eq {lo hi : Nat} (hinput : ∀ t, perLayerInput = some t → t.shape.getD 1 0 = seqLen)
    (hhi : hi = min (lo + maxChunkLength) seqLen) :
    perLayerInput.map (Tensor.slice 1 lo ((lo + maxChunkLength : Nat) : Int)) =
      perLayerInput.map (Tensor.slice 1 lo hi) := by
  cases perLayerInput with
  | none => rfl
  | some t => exact congrArg some (cut_eq (hinput t rfl) hhi)

/-- **The loop rule.** Let every chunk return outputs as `F` says and keep an invariant of what the
    tokens so far have left behind.  Then so does the whole input. -/
theorem forwardChunks_rule (Inv : Nat → LayerPast α → δ → Prop) (F : Nat → Nat → Nat → α)
    (hhidden : hiddenStates.shape = [batch, seqLen, features])
    (hinput : ∀ t, perLayerInput = some t → t.shape.getD 1 0 = seqLen)
    (hpos : 0 < maxChunkLength)
    (hstep : ∀ lo hi layerPast shared, lo < hi → hi ≤ seqLen → Inv lo layerPast shared →
      ∃ chunk newKvs shared', forward (hiddenStates.slice 1 lo hi) layerPast
          (perLayerInput.map (Tensor.slice 1 lo hi)) shared = .ok (chunk, newKvs, shared') ∧
        chunk.shape = [batch, hi - lo, features] ∧
        (∀ i j h, i < batch → j < hi - lo → h < features →
          chunk.get [i, j, h] = F i (lo + j) h) ∧ Inv hi newKvs shared') :
    ∀ {m k : Nat} {output : Tensor α} {layerPast : LayerPast α} {shared : δ},
      k + m = (seqLen + maxChunkLength - 1) / maxChunkLength →
      Inv (min (k * maxChunkLength) seqLen) layerPast shared →
      output.shape = [batch, seqLen, features] →
      (∀ i j h, i < batch → j < min (k * maxChunkLength) seqLen → h < features →
        output.get [i, j, h] = F i j h) →
      ∃ result newKvs shared',
        forwardChunks forward hiddenStates perLayerInput seqLen maxChunkLength
          (List.range' (k * maxChunkLength) m maxChunkLength) output layerPast shared
          = .ok (result, newKvs, shared') ∧
        result.shape = [batch, seqLen, features] ∧
        (∀ i j h, i < batch → j < seqLen → h < features → result.get [i, j, h] = F i j h) ∧
        Inv seqLen newKvs shared'
  | 0, k, output, layerPast, shared, hk, hinv, houtput, hdone => by
    have hle := le_ceilDiv_mul hpos seqLen
    rw [← hk, Nat.add_zero] at hle
    rw [Nat.min_eq_right hle] at hinv hdone
    exact ⟨output, layerPast, shared, rfl, houtput, hdone, hinv⟩
  | m + 1, k, output, layerPast, shared, hk, hinv, houtput, hdone => by
    have hlt : k * maxChunkLength < seqLen := (lt_ceilDiv_iff hpos seqLen k).mp (by omega)
    have hnext : k * maxChunkLength + maxChunkLength = (k + 1) * maxChunkLength :=
      (Nat.succ_mul k maxChunkLength).symm
    rw [Nat.min_eq_left (Nat.le_of_lt hlt)] at hinv hdone
    -- the chunk from `k * maxChunkLength` to `hi`
    obtain ⟨hi, hhi⟩ : ∃ hi, hi = min (k * maxChunkLength + maxChunkLength) seqLen := ⟨_, rfl⟩
    obtain ⟨chunk, newKvs, shared', hforward, hchunk, hget, hinv'⟩ :=
      hstep (k * maxChunkLength) hi layerPast shared (by omega) (by omega) hinv
    have hstart : seqLen ≤ maxChunkLength → k * maxChunkLength = 0 := by
      intro hle
      cases k with
      | zero => exact Nat.zero_mul _
      | succ k =>
        rw [Nat.succ_mul] at hlt
        omega
    obtain ⟨output', hstore, houtput', hdone'⟩ := storeChunk_spec maxChunkLength (by omega)
      (by omega) hhi hstart hchunk hget houtput hdone
    rw [hhi, hnext] at hinv' hdone'
    obtain ⟨result, newKvs', shared'', hrest, hresult⟩ := forwardChunks_rule Inv F hhidden hinput
      hpos hstep (m := m) (k := k + 1) (by omega) hinv' houtput' hdone'
    refine ⟨result, newKvs', shared'', ?_, hresult⟩
    rw [List.range'_succ, hnext, forwardChunks]
    refine except_bind_eq_ok.mpr ⟨(chunk, newKvs, shared'), ?_,
      except_bind_eq_ok.mpr ⟨output', hstore, hrest⟩⟩
    rw [cut_eq (by rw [hhidden]; rfl) hhi, map_cut_eq hinput hhi]
    exact hforward

/-- The loop from the first offset. -/
theorem forwardChunked_rule (Inv : Nat → LayerPast α → δ → Prop) (F : Nat → Nat → Nat → α)
    (hhidden : hiddenStates.shape = [batch, seqLen, features])
    (hinput : ∀ t, perLayerInput = some t → t.shape.getD 1 0 = seqLen) (hlen : 0 < seqLen)
    (hpos : 0 < maxChunkLength)
    (hstep : ∀ lo hi layerPast shared, lo < hi → hi ≤ seqLen → Inv lo layerPast shared →
      ∃ chunk newKvs shared', forward (hiddenStates.slice 1 lo hi) layerPast
          (perLayerInput.map (Tensor.slice 1 lo hi)) shared = .ok (chunk, newKvs, shared') ∧
        chunk.shape = [batch, hi - lo, features] ∧
        (∀ i j h, i < batch → j < hi - lo → h < features →
          chunk.get [i, j, h] = F i (lo + j) h) ∧ Inv hi newKvs shared')
    {layerPast : LayerPast α} {shared : δ} (hinv : Inv 0 layerPast shared) :
    ∃ result newKvs shared', forwardChunked forward hiddenStates layerPast maxChunkLength
        perLayerInput shared = .ok (result, newKvs, shared') ∧
      result.shape = [batch, seqLen, features] ∧
      (∀ i j h, i < batch → j < seqLen → h < features → result.get [i, j, h] = F i j h) ∧
      Inv seqLen newKvs shared' := by
  have hseq : hiddenStates.shape.getD 1 0 = seqLen := by
    rw [hhidden]
    rfl
  obtain ⟨result, newKvs, shared', hresult, hrest⟩ :=
    forwardChunks_rule Inv F hhidden hinput hpos hstep
      (m := (seqLen + maxChunkLength - 1) / maxChunkLength) (k := 0) (by omega)
      (by rw [Nat.zero_mul, Nat.zero_min]; exact hinv)
      ((Tensor.shape_zeros _).trans hhidden) (by simp)
  refine ⟨result, newKvs, shared', ?_, hrest⟩
  simp only [forwardChunked, hseq, if_neg (Nat.ne_of_gt hlen)]
  rw [← hresult, Nat.zero_mul]
  rfl

end Rule

/-! ## Causal blocks -/

/-- The features of the token at position `j` of row `i`. -/
def Tensor.token (t : Tensor α) (i j : Nat) : List α :=
  (List.range (t.shape.getD 2 0)).map fun h => t.get [i, j, h]

/-- What a block is told about one token: its hidden state and its per-layer input. -/
def inputToken (hiddenStates : Tensor α) (perLayerInput : Option (Tensor α)) (i j : Nat) : List α :=
  hiddenStates.token i j ++ perLayerInput.elim [] fun t => t.token i j

/-- The tokens of every row. -/
abbrev History (α : Type) := Nat → List (List α)

/-- The keys and values of one shard: their sizes, and the elements that belong to the last token
    of a row, at a head and a dimension. -/
structure ShardSpec (α : Type) where
  kvHeads : Nat
  keyDim : Nat
  valueDim : Nat
  keyAt : List (List α) → Nat → Nat → α
  valueAt : List (List α) → Nat → Nat → α

/-- What a causal block computes: keys and values per shard, and the features of the output at the
    last token of a row. -/
structure CausalSpec (α : Type) where
  hiddenSize : Nat
  shards : List (ShardSpec α)
  outAt : List (List α) → Nat → α
  hiddenSize_pos : 0 < hiddenSize
  shards_ne_nil : shards ≠ []

/-- Past keys and values that belong to the first `n` tokens of the rows. -/
structure HoldsPast (rows : History α) (batch n : Nat) (shard : ShardSpec α) (kv : KVPair α) :
    Prop where
  key_shape : kv.1.shape = [batch * shard.kvHeads, shard.keyDim, n]
  value_shape : kv.2.shape = [batch * shard.kvHeads, n, shard.valueDim]
  key_get : ∀ r d t, r < batch * shard.kvHeads → d < shard.keyDim → t < n →
    kv.1.get [r, d, t] =
      shard.keyAt ((rows (r / shard.kvHeads)).take (t + 1)) (r % shard.kvHeads) d
  value_get : ∀ r d t, r < batch * shard.kvHeads → d < shard.valueDim → t < n →
    kv.2.get [r, t, d] =
      shard.valueAt ((rows (r / shard.kvHeads)).take (t + 1)) (r % shard.kvHeads) d

/-- The input of `n` tokens continues the rows at position `p`. -/
structure Continues (rows : History α) (batch p n features : Nat) (hiddenStates : Tensor α)
    (perLayerInput : Option (Tensor α)) : Prop where
  shape : hiddenStates.shape = [batch, n, features]
  input_shape : ∀ t, perLayerInput = some t → ∃ width, t.shape = [batch, n, width]
  token : ∀ i j, i < batch → j < n →
    (rows i)[p + j]? = some (inputToken hiddenStates perLayerInput i j)

/-- What a block returns for tokens that continue the rows at position `p`. -/
structure Computes (spec : CausalSpec α) (rows : History α) (batch p n : Nat) (output : Tensor α)
    (newKvs : List (KVPair α)) : Prop where
  shape : output.shape = [batch, n, spec.hiddenSize]
  output_get : ∀ i j h, i < batch → j < n → h < spec.hiddenSize →
    output.get [i, j, h] = spec.outAt ((rows i).take (p + j + 1)) h
  holds : List.Forall₂ (HoldsPast rows batch (p + n)) spec.shards newKvs

/-- `forward` computes what the specification says, from any past and any tokens behind it, and
    keeps a property of the object it is handed along the positions. -/
def IsCausalKeeping (J : Nat → δ → Prop) (spec : CausalSpec α) (forward : ModuleForward δ α) :
    Prop :=
  ∀ (rows : History α) (batch p n : Nat) (hiddenStates : Tensor α)
    (perLayerInput : Option (Tensor α)) (past : List (KVPair α)) (shared : δ), 0 < batch → 0 < n →
    Continues rows batch p n spec.hiddenSize hiddenStates perLayerInput →
    List.Forall₂ (HoldsPast rows batch p) spec.shards past → J p shared →
    ∃ output newKvs shared', forward hiddenStates (some past) perLayerInput shared
        = .ok (output, some newKvs, shared') ∧ Computes spec rows batch p n output newKvs ∧
      J (p + n) shared'

/-- A causal block. -/
def IsCausal (spec : CausalSpec α) (forward : ModuleForward δ α) : Prop :=
  IsCausalKeeping (fun _ _ => True) spec forward

/-- The outputs are determined by the specification. -/
theorem Computes.output_eq {spec : CausalSpec α} {rows : History α} {batch p n : Nat}
    {output output' : Tensor α} {newKvs newKvs' : List (KVPair α)}
    (h : Computes spec rows batch p n output newKvs)
    (h' : Computes spec rows batch p n output' newKvs') : output = output' := by
  refine Tensor.ext_get (h.shape.trans h'.shape.symm) fun ix hix => ?_
  rw [h.shape] at hix
  obtain ⟨i, j, f, rfl, hi, hj, hf⟩ := hix.exists_three
  rw [h.output_get i j f hi hj hf, h'.output_get i j f hi hj hf]

theorem token_slice {t : Tensor α} {batch seqLen features lo hi i j : Nat}
    (hshape : t.shape = [batch, seqLen, features]) (hlo : lo ≤ hi) (hhi : hi ≤ seqLen)
    (hi' : i < batch) (hj : j < hi - lo) : (t.slice 1 lo hi).token i j = t.token i (lo + j) := by
  rw [Tensor.token, Tensor.token, shape_slice_tokens hshape hlo hhi, hshape]
  refine List.map_congr_left fun h hh => ?_
  exact get_slice_tokens hshape hlo hhi hi' hj (List.mem_range.mp hh)

/-- A stretch of the input continues the rows where the stretch before it ends. -/
theorem Continues.slice {rows : History α} {batch p n features lo hi : Nat}
    {hiddenStates : Tensor α} {perLayerInput : Option (Tensor α)}
    (h : Continues rows batch p n features hiddenStates perLayerInput) (hlo : lo ≤ hi)
    (hhi : hi ≤ n) : Continues rows batch (p + lo) (hi - lo) features (hiddenStates.slice 1 lo hi)
      (perLayerInput.map (Tensor.slice 1 lo hi)) where
  shape := shape_slice_tokens h.shape hlo hhi
  input_shape t ht := by
    obtain ⟨t', ht', rfl⟩ := Option.map_eq_some_iff.mp ht
    obtain ⟨width, hwidth⟩ := h.input_shape t' ht'
    exact ⟨width, shape_slice_tokens hwidth hlo hhi⟩
  token i j hi' hj := by
    rw [Nat.add_assoc, h.token i (lo + j) hi' (by omega), inputToken, inputToken,
      token_slice h.shape hlo hhi hi' hj]
    cases hinput : perLayerInput with
    | none => rfl
    | some t =>
      obtain ⟨width, hwidth⟩ := h.input_shape t hinput
      rw [Option.map_some, Option.elim_some, Option.elim_some, token_slice hwidth hlo hhi hi' hj]

/-- **Chunking does not show**: the loop over a causal block computes what the block does. -/
theorem forwardChunked_causal {J : Nat → δ → Prop} {spec : CausalSpec α}
    {forward : ModuleForward δ α} (hcausal : IsCausalKeeping J spec forward) {shared : δ}
    {rows : History α} {batch p n maxChunkLength : Nat} {hiddenStates : Tensor α}
    {perLayerInput : Option (Tensor α)} {past : List (KVPair α)} (hpos : 0 < maxChunkLength)
    (hbatch : 0 < batch) (hn : 0 < n)
    (hcontinues : Continues rows batch p n spec.hiddenSize hiddenStates perLayerInput)
    (hpast : List.Forall₂ (HoldsPast rows batch p) spec.shards past) (hshared : J p shared) :
    ∃ output newKvs shared', forwardChunked forward hiddenStates (some past) maxChunkLength
        perLayerInput shared = .ok (output, some newKvs, shared') ∧
      Computes spec rows batch p n output newKvs ∧ J (p + n) shared' := by
  let Inv : Nat → LayerPast α → δ → Prop := fun q layerPast shared => J (p + q) shared ∧
    ∃ kvs, layerPast = some kvs ∧ List.Forall₂ (HoldsPast rows batch (p + q)) spec.shards kvs
  obtain ⟨output, newKvs, shared', hresult, hshape, hget, hshared', kvs, rfl, hholds⟩ :=
    forwardChunked_rule Inv (fun i j h => spec.outAt ((rows i).take (p + j + 1)) h)
      hcontinues.shape
      (fun t ht => by
        obtain ⟨width, hwidth⟩ := hcontinues.input_shape t ht
        rw [hwidth]
        rfl)
      hn hpos
      (by
        rintro lo hi _ shared hlt hle ⟨hshared, kvs, rfl, hkvs⟩
        have hend : p + lo + (hi - lo) = p + hi := by omega
        obtain ⟨chunk, newKvs, shared', hforward, hcomputes, hshared'⟩ := hcausal rows batch
          (p + lo) (hi - lo) _ _ kvs shared hbatch (by omega)
          (hcontinues.slice (Nat.le_of_lt hlt) hle) hkvs hshared
        refine ⟨chunk, some newKvs, shared', hforward, hcomputes.shape, fun i j h hi' hj hh => ?_,
          hend ▸ hshared', newKvs, rfl, hend ▸ hcomputes.holds⟩
        rw [hcomputes.output_get i j h hi' hj hh]
        show _ = spec.outAt ((rows i).take (p + (lo + j) + 1)) h
        rw [Nat.add_assoc p lo j])
      ⟨hshared, past, rfl, hpast⟩
  exact ⟨output, kvs, shared', hresult, ⟨hshape, hget, hholds⟩, hshared'⟩

/-! ## A block that attends to the first token -/

namespace FirstToken

def lastToken (tokens : List (List Int)) : List Int := tokens.getD (tokens.length - 1) []

theorem lastToken_take {tokens : List (List Int)} {token : List Int} {t : Nat}
    (h : tokens[t]? = some token) : lastToken (tokens.take (t + 1)) = token := by
  obtain ⟨hlt, _⟩ := List.getElem?_eq_some_iff.mp h
  have hlen : (tokens.take (t + 1)).length - 1 = t := by
    rw [List.length_take]
    omega
  rw [lastToken, hlen, List.getD_eq_getElem?_getD, List.getElem?_take, if_pos (Nat.lt_succ_self t),
    h]
  rfl

/-- The value of a token is the token, and the output at every position is the first token. -/
def spec : CausalSpec Int where
  hiddenSize := 1
  shards := [⟨1, 1, 1, fun _ _ _ => 0, fun tokens _ d =>
    (lastToken tokens).getD d 0⟩]
  outAt tokens h := (tokens.getD 0 []).getD h 0
  hiddenSize_pos := Nat.one_pos
  shards_ne_nil := by decide

/-- Values of the past, and behind them the tokens. -/
def newValues (value hiddenStates : Tensor Int) : Tensor Int :=
  let past := value.shape.getD 1 0
  Tensor.ofFn [hiddenStates.shape.getD 0 0, past + hiddenStates.shape.getD 1 0, 1] fun ix =>
    if ix.getD 1 0 < past then value.get ix
    else hiddenStates.get [ix.getD 0 0, ix.getD 1 0 - past, ix.getD 2 0]

def run (hiddenStates : Tensor Int) : LayerPast Int →
    Except PyExc (Tensor Int × LayerPast Int × KVPair Int)
  | some [(_, value)] =>
    let values := newValues value hiddenStates
    let keys := Tensor.zeros [hiddenStates.shape.getD 0 0, 1, values.shape.getD 1 0]
    .ok (Tensor.ofFn hiddenStates.shape fun ix => values.get [ix.getD 0 0, 0, ix.getD 2 0],
      some [(keys, values)], (keys, values))
  | _ => .error .typeError

def block : BlockModule String Int where
  role := .ordinary
  run := fun _ hiddenStates layerPast _ => run hiddenStates layerPast
  shape_run := by
    intro _ hiddenStates layerPast _ r h
    unfold run at h
    split at h
    · cases h
      rfl
    · nomatch h

theorem get_newValues {value hiddenStates : Tensor Int} {batch p n r t : Nat}
    (hvalue : value.shape = [batch, p, 1]) (hhidden : hiddenStates.shape = [batch, n, 1])
    (hr : r < batch) (ht : t < p + n) : (newValues value hiddenStates).get [r, t, 0] =
      if t < p then value.get [r, t, 0] else hiddenStates.get [r, t - p, 0] := by
  have hix : InBounds [batch, p + n, 1] [r, t, 0] := ⟨hr, ht, Nat.one_pos, trivial⟩
  simp only [newValues, hvalue, hhidden]
  exact Tensor.get_ofFn _ hix

/-- The values of past and tokens are the tokens of the rows. -/
theorem get_newValues_eq {rows : History Int} {kv : KVPair Int} {hiddenStates : Tensor Int}
    {perLayerInput : Option (Tensor Int)} {batch p n : Nat}
    (hcontinues : Continues rows batch p n 1 hiddenStates perLayerInput)
    (hvalue : kv.2.shape = [batch, p, 1])
    (hpast : ∀ r t, r < batch → t < p →
      kv.2.get [r, t, 0] = (lastToken ((rows r).take (t + 1))).getD 0 0)
    {r t : Nat} (hr : r < batch) (ht : t < p + n) :
    (newValues kv.2 hiddenStates).get [r, t, 0] =
      (lastToken ((rows r).take (t + 1))).getD 0 0 := by
  rw [get_newValues hvalue hcontinues.shape hr ht]
  split
  · exact hpast r t hr ‹_›
  · rename_i hge
    have htoken := hcontinues.token r (t - p) hr (by omega)
    rw [Nat.add_sub_cancel' (by omega)] at htoken
    rw [lastToken_take htoken]
    show _ = (hiddenStates.token r (t - p) ++ _).getD 0 0
    rw [Tensor.token, hcontinues.shape]
    rfl

theorem isCausal : IsCausal spec block.forward := by
  rintro rows batch p n hiddenStates perLayerInput past shared _ hn hcontinues hpast _
  obtain ⟨kv, _, hkv, hnil, rfl⟩ := List.forall₂_cons_left_iff.mp hpast
  cases hnil
  have hvalue : kv.2.shape = [batch, p, 1] := by
    rw [hkv.value_shape]
    simp
  have hget := fun {r t : Nat} (hr : r < batch) (ht : t < p + n) =>
    get_newValues_eq hcontinues hvalue
      (fun r t hr ht => by
        have h := hkv.value_get r 0 t (by simpa using hr) Nat.one_pos ht
        simpa using h) hr ht
  have hshape : (newValues kv.2 hiddenStates).shape = [batch, p + n, 1] := by
    simp [newValues, hvalue, hcontinues.shape]
  refine ⟨_, _, shared, rfl, ⟨?_, fun i j h hi hj hh => ?_, .cons ⟨?_, ?_, ?_, ?_⟩ .nil⟩, trivial⟩
  · exact hcontinues.shape
  · obtain rfl : h = 0 := by
      have : h < 1 := hh
      omega
    have hix : InBounds hiddenStates.shape [i, j, 0] := by
      rw [hcontinues.shape]
      exact ⟨hi, hj, Nat.one_pos, trivial⟩
    rw [Tensor.get_ofFn _ hix]
    show (newValues kv.2 hiddenStates).get [i, 0, 0] = (((rows i).take (p + j + 1)).getD 0 []).getD 0 0
    rw [hget hi (by omega)]
    cases rows i with
    | nil => rfl
    | cons token tokens => rfl
  · show [hiddenStates.shape.getD 0 0, 1, (newValues kv.2 hiddenStates).shape.getD 1 0] = _
    rw [hcontinues.shape, hshape]
    simp
  · rw [hshape]
    simp
  · intro r d t hr hd ht
    have hix : InBounds [hiddenStates.shape.getD 0 0, 1,
        (newValues kv.2 hiddenStates).shape.getD 1 0] [r, d, t] := by
      rw [hcontinues.shape, hshape]
      exact ⟨by simpa [spec] using hr, hd, ht, trivial⟩
    exact Tensor.get_ofFn _ hix
  · intro r d t hr hd ht
    obtain rfl : d = 0 := by
      have : d < 1 := hd
      omega
    have hr' : r < batch := by simpa [spec] using hr
    rw [hget hr' ht]
    simp

end FirstToken

end Drift
