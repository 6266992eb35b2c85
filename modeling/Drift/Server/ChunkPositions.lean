/-
  The positions of a Gemma 4 block over the chunks of one step.

  For a block with a cache of its own the past of a chunk ends where the chunk begins, so the
  positions of the chunks line up (`recording_causal`).  For a KV-sharing consumer every chunk of
  length `c` gets the last `c` positions of the step, so they line up only if there is one chunk.
-/
import Drift.Server.Gemma4

namespace Drift

section Congr

variable {α δ : Type} [Zero α]

/-- Two loops whose blocks agree on every chunk. -/
theorem forwardChunks_congr {forward forward' : ModuleForward δ α} {hiddenStates : Tensor α}
    {perLayerInput perLayerInput' : Option (Tensor α)} {seqLen maxChunkLength : Nat}
    (h : ∀ (start stop : Int) layerPast shared,
      forward (hiddenStates.slice 1 start stop) layerPast
          (perLayerInput.map (Tensor.slice 1 start stop)) shared =
        forward' (hiddenStates.slice 1 start stop) layerPast
          (perLayerInput'.map (Tensor.slice 1 start stop)) shared) :
    ∀ {offsets : List Nat} {output : Tensor α} {layerPast : LayerPast α} {shared : δ},
      forwardChunks forward hiddenStates perLayerInput seqLen maxChunkLength offsets output
          layerPast shared =
        forwardChunks forward' hiddenStates perLayerInput' seqLen maxChunkLength offsets output
          layerPast shared
  | [], _, _, _ => rfl
  | offset :: offsets, output, layerPast, shared => by
    rw [forwardChunks, forwardChunks, h]
    refine congrArg _ (funext fun result => ?_)
    obtain ⟨chunk, newKvs, shared⟩ := result
    exact congrArg _ (funext fun output => forwardChunks_congr h)

theorem forwardChunked_congr {forward forward' : ModuleForward δ α} {hiddenStates : Tensor α}
    {perLayerInput perLayerInput' : Option (Tensor α)} {maxChunkLength : Nat}
    {layerPast : LayerPast α} {shared : δ}
    (h : ∀ (start stop : Int) layerPast shared,
      forward (hiddenStates.slice 1 start stop) layerPast
          (perLayerInput.map (Tensor.slice 1 start stop)) shared =
        forward' (hiddenStates.slice 1 start stop) layerPast
          (perLayerInput'.map (Tensor.slice 1 start stop)) shared) :
    forwardChunked forward hiddenStates layerPast maxChunkLength perLayerInput shared =
      forwardChunked forward' hiddenStates layerPast maxChunkLength perLayerInput' shared := by
  simp only [forwardChunked]
  rw [forwardChunks_congr h]

/-- A step that fits one chunk is one call of the block. -/
theorem forwardChunked_single {forward : ModuleForward δ α} {hiddenStates : Tensor α}
    {perLayerInput : Option (Tensor α)} {seqLen maxChunkLength : Nat} {layerPast : LayerPast α}
    {shared : δ} (hseq : hiddenStates.shape.getD 1 0 = seqLen)
    (hinput : ∀ t, perLayerInput = some t → t.shape.getD 1 0 = seqLen) (hpos : 0 < seqLen)
    (hle : seqLen ≤ maxChunkLength) :
    forwardChunked forward hiddenStates layerPast maxChunkLength perLayerInput shared =
      forward hiddenStates layerPast perLayerInput shared := by
  have hzero : 0 + maxChunkLength = maxChunkLength := Nat.zero_add _
  have hcut : hiddenStates.slice 1 ((0 : Nat) : Int) ((0 + maxChunkLength : Nat) : Int)
      = hiddenStates := by
    rw [hzero]
    exact Tensor.slice_all (by omega)
  have hcut' : perLayerInput.map (Tensor.slice 1 ((0 : Nat) : Int)
      ((0 + maxChunkLength : Nat) : Int)) = perLayerInput := by
    cases perLayerInput with
    | none => rfl
    | some t =>
      have ht := hinput t rfl
      rw [hzero]
      exact congrArg some (Tensor.slice_all (by omega))
  rw [forwardChunked, if_neg (by omega), hseq, pyRangeStep_of_le hpos hle, forwardChunks, hcut,
    hcut']
  cases forward hiddenStates layerPast perLayerInput shared with
  | error e => rfl
  | ok r =>
    show (storeChunk seqLen maxChunkLength 0 r.1 _).bind _ = _
    rw [storeChunk, if_neg (by omega)]
    rfl

end Congr

namespace WrappedGemma4Block

variable {α μ : Type} [Zero α] {block : WrappedGemma4Block α μ}

/-- The default per-layer input of a chunk is a chunk of the default. -/
theorem sideInput_slice {hiddenStates : Tensor α} {batch seqLen features : Nat}
    (hshape : hiddenStates.shape = [batch, seqLen, features]) (perLayerInput : Option (Tensor α))
    (start stop : Int) :
    block.sideInput (hiddenStates.slice 1 start stop)
        (perLayerInput.map (Tensor.slice 1 start stop)) =
      (block.sideInput hiddenStates perLayerInput).map (Tensor.slice 1 start stop) := by
  rw [sideInput, sideInput]
  cases block.variant with
  | gemma4Unified => rfl
  | gemma4 width =>
    cases perLayerInput with
    | some t => rfl
    | none =>
      by_cases hwidth : width = 0
      · simp [hwidth]
      · simp only [Option.map_none, Option.isNone_none, true_and, Ne, hwidth, not_false_iff,
          if_true, Option.map_some, Tensor.slice_zeros, Tensor.shape_slice, hshape]
        rfl

theorem forwardChunked_recording {hiddenStates : Tensor α} {batch seqLen features : Nat}
    (hshape : hiddenStates.shape = [batch, seqLen, features]) {perLayerInput : Option (Tensor α)}
    {layerPast : LayerPast α} {maxChunkLength : Nat}
    {shared : SharedKvStates String α × List Int} :
    forwardChunked (block.recording block.forward) hiddenStates layerPast maxChunkLength
        perLayerInput shared =
      forwardChunked (block.recording block.forwardWith) hiddenStates layerPast maxChunkLength
        (block.sideInput hiddenStates perLayerInput) shared := by
  refine forwardChunked_congr fun start stop layerPast shared => ?_
  obtain ⟨shared, positions⟩ := shared
  rw [← sideInput_slice hshape]
  rfl

/-! ## Blocks with a cache of their own -/

/-- What is relied on of the stock layer: handed the positions that follow its cache, and the mask
    for them, it is causal and appends to the cache. -/
structure StockCausal (block : WrappedGemma4Block α μ) (spec : CausalSpec α)
    (shard : ShardSpec α) : Prop where
  shards : spec.shards = [shard]
  kvHeads_pos : 0 < shard.kvHeads
  keyDim_pos : 0 < shard.keyDim
  decoderLayer : ∀ (rows : History α) (batch p n : Nat) (hiddenStates : Tensor α)
    (perLayerInput : Option (Tensor α)) (shared : SharedKvStates String α)
    (past : Option (KVPair α)), 0 < batch → 0 < n →
    Continues rows batch p n spec.hiddenSize hiddenStates perLayerInput →
    (p = 0 ∧ past = none) ∨ (∃ kv, past = some kv ∧ HoldsStock rows batch p shard kv) →
    ∃ output present shared', block.decoderLayer
        { hiddenStates := hiddenStates
          perLayerInput := perLayerInput
          sharedKvStates := shared
          cachePosition := pyRange p ((p + n : Nat) : Int)
          attentionMask := block.maskFn hiddenStates past (pyRange p ((p + n : Nat) : Int))
          pastKeyValues := some past } = .ok (output, some present, shared') ∧
      output.shape = [batch, n, spec.hiddenSize] ∧
      (∀ i j h, i < batch → j < n → h < spec.hiddenSize →
        output.get [i, j, h] = spec.outAt ((rows i).take (p + j + 1)) h) ∧
      HoldsStock rows batch (p + n) shard present

variable {spec : CausalSpec α} {shard : ShardSpec α}

/-- A block with a cache of its own sees the past that it is handed. -/
theorem cacheView_ordinary (hordinary : block.isKvSharedLayer = false) {rows : History α}
    {batch p : Nat} {kv : KVPair α} {hiddenStates : Tensor α} (layerPast : List (KVPair α))
    (shared : SharedKvStates String α) (hkvHeads : 0 < shard.kvHeads)
    (hkeyDim : 0 < shard.keyDim) (hbatch : 0 < batch)
    (hshape : hiddenStates.shape.getD 0 0 = batch) (hkv : HoldsPast rows batch p shard kv) :
    ∃ past, block.cacheView hiddenStates (some (kv :: layerPast)) shared
        = .ok ⟨p, past, some past⟩ ∧
      ((p = 0 ∧ past = none) ∨ (∃ kv, past = some kv ∧ HoldsStock rows batch p shard kv)) := by
  simp only [cacheView, hordinary, Bool.false_eq_true, if_false]
  have hdummy : isDummy kv.1 = true ↔ p = 0 := by
    have := Nat.mul_pos hbatch hkvHeads
    rw [isDummy, Tensor.numel, hkv.key_shape]
    simp only [List.prod_cons, List.prod_nil, Nat.mul_one, Nat.mul_eq_zero, decide_eq_true_eq]
    omega
  by_cases hp : p = 0
  · rw [if_pos (hdummy.mpr hp), hp]
    exact ⟨none, rfl, .inl ⟨rfl, rfl⟩⟩
  · rw [if_neg (fun h => hp (hdummy.mp h)), hshape]
    obtain ⟨past, hpast, hholds⟩ := hkv.fromBloom hbatch
    refine ⟨some past, ?_, .inr ⟨past, rfl, hholds⟩⟩
    rw [hpast]
    show Except.ok (CacheView.mk ((past.1.shape.getD 2 0 : Nat) : Int) _ _) = _
    rw [hholds.key_shape]
    rfl

/-- **An ordinary block is causal, and the positions it writes down follow each other.** -/
theorem recording_causal (hordinary : block.isKvSharedLayer = false)
    (hstock : StockCausal block spec shard) (start : Nat) :
    IsCausalKeeping (fun q shared => shared.2 = pyRange start q ∧ start ≤ q) spec
      (block.recording block.forwardWith) := by
  rintro rows batch p n hiddenStates perLayerInput past ⟨shared, positions⟩ hbatch hn hcontinues
    hpast ⟨rfl, hstart⟩
  rw [hstock.shards] at hpast
  obtain ⟨kv, _, hkv, hnil, rfl⟩ := List.forall₂_cons_left_iff.mp hpast
  cases hnil
  have hrows : hiddenStates.shape.getD 0 0 = batch := by
    rw [hcontinues.shape]
    rfl
  have hseq : hiddenStates.shape.getD 1 0 = n := by
    rw [hcontinues.shape]
    rfl
  obtain ⟨past, hview, hpast⟩ := cacheView_ordinary hordinary [] shared
    hstock.kvHeads_pos hstock.keyDim_pos hbatch hrows hkv
  obtain ⟨output, present, shared', hlayer, hshape, hget, hpresent⟩ :=
    hstock.decoderLayer rows batch p n hiddenStates perLayerInput shared past hbatch hn hcontinues
      hpast
  obtain ⟨newKvs, hnewKvs, hholds⟩ := hpresent.toBloom
  have hpositions : positionsFrom (p : Int) hiddenStates = pyRange p ((p + n : Nat) : Int) := by
    rw [positionsFrom, hseq]
    rfl
  have hforward : block.forwardWith hiddenStates (some [kv]) perLayerInput shared
      = .ok (output, some [newKvs], shared') := by
    refine except_bind_eq_ok.mpr ⟨_, hview, ?_⟩
    simp only [hpositions]
    refine except_bind_eq_ok.mpr ⟨_, hlayer, ?_⟩
    simp only [hordinary, Bool.false_eq_true, if_false]
    refine except_bind_eq_ok.mpr ⟨present, rfl, ?_⟩
    rw [hrows, hnewKvs]
    rfl
  have hcache : block.cachePosition hiddenStates (some [kv]) shared
      = .ok (pyRange p ((p + n : Nat) : Int)) := by
    rw [cachePosition, hview]
    exact congrArg Except.ok hpositions
  refine ⟨output, [newKvs], (shared', pyRange start p ++ pyRange p ((p + n : Nat) : Int)), ?_,
    ⟨hshape, hget, ?_⟩, ?_, by omega⟩
  · exact except_bind_eq_ok.mpr ⟨_, hcache, except_bind_eq_ok.mpr ⟨_, hforward, rfl⟩⟩
  · rw [hstock.shards]
    exact .cons hholds .nil
  · exact pyRange_append (by omega) (by omega)

/-! ## The step -/

/-- What a block is handed for a step of `n` tokens behind `p` tokens.  A block with a cache of its
    own has the keys and values of the `p` tokens; a consumer finds the keys of its donor, which has
    run on all `p + n` of them. -/
structure BehindPrefix (block : WrappedGemma4Block α μ) (batch p n width : Nat)
    (hiddenStates : Tensor α) (perLayerInput : Option (Tensor α)) (layerPast : LayerPast α)
    (shared : SharedKvStates String α) : Prop where
  batch_pos : 0 < batch
  shape : hiddenStates.shape = [batch, n, width]
  input_shape : ∀ t, perLayerInput = some t → t.shape.getD 1 0 = n
  ordinary : block.isKvSharedLayer = false → ∃ spec shard rows kv, StockCausal block spec shard ∧
    spec.hiddenSize = width ∧ layerPast = some [kv] ∧ HoldsPast rows batch p shard kv ∧
    Continues rows batch p n width hiddenStates (block.sideInput hiddenStates perLayerInput)
  consumer : block.isKvSharedLayer = true → ∃ donor kvHeads headDim,
    shared.lookup block.layerType = some donor ∧ donor.1.shape = [batch, kvHeads, p + n, headDim]

/-- The positions of a consumer: the last of the donor's keys. -/
theorem cachePosition_consumer (hconsumer : block.isKvSharedLayer = true)
    {hiddenStates : Tensor α} {layerPast : LayerPast α} {shared : SharedKvStates String α}
    {donor : KVPair α} {donorLength seqLen : Nat}
    (hdonor : shared.lookup block.layerType = some donor)
    (hlength : donor.1.shape.getD 2 0 = donorLength)
    (hseq : hiddenStates.shape.getD 1 0 = seqLen) :
    block.cachePosition hiddenStates layerPast shared =
      .ok (pyRange ((donorLength : Int) - seqLen) donorLength) := by
  simp only [cachePosition, cacheView, hconsumer, if_true, hdonor, hlength, hseq]
  show Except.ok (positionsFrom _ hiddenStates) = _
  have hend : (donorLength : Int) - seqLen + (seqLen : Nat) = donorLength := by omega
  rw [positionsFrom, hseq]
  exact congrArg (fun stop => Except.ok (pyRange _ stop)) hend

/-- A call that writes down its positions is a call. -/
theorem recording_ok {forward : ModuleForward (SharedKvStates String α) α}
    {hiddenStates output : Tensor α} {layerPast newKvs : LayerPast α}
    {perLayerInput : Option (Tensor α)} {shared shared' : SharedKvStates String α}
    {positions positions' : List Int}
    (h : block.recording forward hiddenStates layerPast perLayerInput (shared, positions)
      = .ok (output, newKvs, shared', positions')) :
    ∃ cachePosition, block.cachePosition hiddenStates layerPast shared = .ok cachePosition ∧
      forward hiddenStates layerPast perLayerInput shared = .ok (output, newKvs, shared') ∧
      positions' = positions ++ cachePosition := by
  obtain ⟨cachePosition, hcache, hrest⟩ := except_bind_eq_ok.mp h
  obtain ⟨_, hforward, hret⟩ := except_bind_eq_ok.mp hrest
  cases hret
  exact ⟨cachePosition, hcache, hforward, rfl⟩

/-- What is written down is never taken back. -/
theorem forwardChunks_positions {forward : ModuleForward (SharedKvStates String α) α}
    {hiddenStates : Tensor α} {perLayerInput : Option (Tensor α)} {seqLen maxChunkLength : Nat} :
    ∀ {offsets : List Nat} {output result : Tensor α} {layerPast newKvs : LayerPast α}
      {shared shared' : SharedKvStates String α} {positions positions' : List Int},
      forwardChunks (block.recording forward) hiddenStates perLayerInput seqLen maxChunkLength
        offsets output layerPast (shared, positions) = .ok (result, newKvs, shared', positions') →
      ∃ more, positions' = positions ++ more
  | [], _, _, _, _, _, _, positions, _, h => by
    cases h
    exact ⟨[], (List.append_nil _).symm⟩
  | offset :: offsets, _, _, _, _, _, _, positions, _, h => by
    obtain ⟨⟨chunk, kvs, shared₁, positions₁⟩, hchunk, hrest⟩ := except_bind_eq_ok.mp h
    obtain ⟨output', _, hloop⟩ := except_bind_eq_ok.mp hrest
    obtain ⟨cachePosition, _, _, rfl⟩ := recording_ok hchunk
    obtain ⟨more, hmore⟩ := forwardChunks_positions hloop
    exact ⟨cachePosition ++ more, by rw [hmore, List.append_assoc]⟩

/-- The first chunk of a consumer's step begins where its length leaves off from the donor's. -/
theorem head_positions_consumer (hconsumer : block.isKvSharedLayer = true)
    {forward : ModuleForward (SharedKvStates String α) α} {hiddenStates result : Tensor α}
    {perLayerInput : Option (Tensor α)} {layerPast newKvs : LayerPast α}
    {shared shared' : SharedKvStates String α} {positions : List Int} {donor : KVPair α}
    {batch n width donorLength maxChunkLength : Nat}
    (hdonor : shared.lookup block.layerType = some donor)
    (hlength : donor.1.shape.getD 2 0 = donorLength)
    (hshape : hiddenStates.shape = [batch, n, width]) (hpos : 0 < maxChunkLength)
    (hlt : maxChunkLength < n)
    (h : forwardChunked (block.recording forward) hiddenStates layerPast maxChunkLength
      perLayerInput (shared, []) = .ok (result, newKvs, shared', positions)) :
    positions.head? = some ((donorLength : Int) - maxChunkLength) := by
  have hseq : hiddenStates.shape.getD 1 0 = n := by
    rw [hshape]
    rfl
  obtain ⟨offsets, hoffsets⟩ : ∃ offsets, pyRangeStep n maxChunkLength = 0 :: offsets := by
    have hne := pyRangeStep_ne_nil (by omega : 0 < n) hpos
    rw [pyRangeStep] at hne ⊢
    cases hcount : (n + maxChunkLength - 1) / maxChunkLength with
    | zero =>
      rw [hcount] at hne
      exact absurd rfl hne
    | succ count => exact ⟨_, List.range'_succ⟩
  rw [forwardChunked, if_neg (by omega), hseq, hoffsets] at h
  obtain ⟨⟨chunk, kvs, shared₁, positions₁⟩, hchunk, hrest⟩ := except_bind_eq_ok.mp h
  obtain ⟨output', _, hloop⟩ := except_bind_eq_ok.mp hrest
  obtain ⟨cachePosition, hcache, _, rfl⟩ := recording_ok hchunk
  have hcut : (hiddenStates.slice 1 ((0 : Nat) : Int)
      ((0 + maxChunkLength : Nat) : Int)).shape.getD 1 0 = maxChunkLength := by
    rw [Nat.zero_add, shape_slice_tokens hshape (Nat.zero_le _) (by omega)]
    rfl
  rw [cachePosition_consumer hconsumer hdonor hlength hcut] at hcache
  cases hcache
  obtain ⟨more, rfl⟩ := forwardChunks_positions hloop
  rw [List.head?_append, head?_pyRange (by omega)]
  rfl

/-- **Positions over the chunks.** Let the block serve the step in one chunk.  In chunks of length
    `c` it gives the same outputs, at the positions `p, …, p + n - 1` in this order, exactly if it
    has a cache of its own or the step fits one chunk. -/
theorem chunk_positions_iff (block : WrappedGemma4Block α μ) {batch p n width : Nat}
    {hiddenStates output : Tensor α} {perLayerInput : Option (Tensor α)}
    {layerPast newKvs : LayerPast α} {shared shared' : SharedKvStates String α}
    (hstep : block.BehindPrefix batch p n width hiddenStates perLayerInput layerPast shared)
    (hserved : forwardChunked block.forward hiddenStates layerPast n perLayerInput shared
      = .ok (output, newKvs, shared')) {maxChunkLength : Nat} (hn : 1 ≤ n)
    (hpos : 1 ≤ maxChunkLength) :
    (∃ newKvs shared', forwardChunked (block.recording block.forward) hiddenStates layerPast
        maxChunkLength perLayerInput (shared, [])
      = .ok (output, newKvs, shared', pyRange p ((p + n : Nat) : Int))) ↔
    (block.isKvSharedLayer = true → n ≤ maxChunkLength) := by
  have hseq : hiddenStates.shape.getD 1 0 = n := by
    rw [hstep.shape]
    rfl
  cases hrole : block.isKvSharedLayer with
  | false =>
    refine iff_of_true ?_ (fun h => nomatch h)
    obtain ⟨spec, shard, rows, kv, hstock, rfl, rfl, hkv, hcontinues⟩ := hstep.ordinary hrole
    have hpast : List.Forall₂ (HoldsPast rows batch p) spec.shards [kv] := by
      rw [hstock.shards]
      exact .cons hkv .nil
    have hcausal := recording_causal hrole hstock p
    have hstart : (shared, ([] : List Int)).2 = pyRange p p ∧ p ≤ p :=
      ⟨(pyRange_self _).symm, Nat.le_refl p⟩
    -- in one call, and in chunks
    obtain ⟨whole, _, ⟨_, _⟩, hwhole, hcomputes, _⟩ := hcausal rows batch p n _ _ [kv]
      (shared, []) hstep.batch_pos hn hcontinues hpast hstart
    obtain ⟨result, kvs, ⟨shared₁, positions⟩, hrun, hcomputes', rfl, _⟩ :=
      forwardChunked_causal hcausal hpos hstep.batch_pos hn hcontinues hpast hstart
    obtain ⟨_, _, hcall, _⟩ := recording_ok hwhole
    rw [forwardChunked_single hseq hstep.input_shape hn (Nat.le_refl n)] at hserved
    obtain rfl : output = whole := congrArg Prod.fst (Except.ok.inj (hserved.symm.trans hcall))
    rw [hcomputes.output_eq hcomputes', forwardChunked_recording hstep.shape]
    exact ⟨some kvs, shared₁, hrun⟩
  | true =>
    obtain ⟨donor, kvHeads, headDim, hdonor, hdonorShape⟩ := hstep.consumer hrole
    have hlength : donor.1.shape.getD 2 0 = p + n := by
      rw [hdonorShape]
      rfl
    constructor
    · rintro ⟨newKvs', shared₁, hrun⟩ _
      by_contra hlt
      have hhead := head_positions_consumer hrole hdonor hlength hstep.shape hpos (by omega) hrun
      rw [head?_pyRange (by omega)] at hhead
      have := Option.some.inj hhead
      omega
    · intro hle
      rw [forwardChunked_single hseq hstep.input_shape hn (Nat.le_refl n)] at hserved
      refine ⟨newKvs, shared', ?_⟩
      rw [forwardChunked_single hseq hstep.input_shape hn (hle rfl)]
      refine except_bind_eq_ok.mpr ⟨_, cachePosition_consumer hrole hdonor hlength hseq,
        except_bind_eq_ok.mpr ⟨_, hserved, ?_⟩⟩
      have hstart : ((p + n : Nat) : Int) - (n : Int) = p := by omega
      rw [hstart]
      rfl

end WrappedGemma4Block

/-! ## A layer that passes its input on -/

namespace PassThrough

/-- Keys and values are zeros, and the output at a position is the token. -/
def shard : ShardSpec Int := ⟨1, 1, 1, fun _ _ _ => 0, fun _ _ _ => 0⟩

def spec : CausalSpec Int where
  hiddenSize := 1
  shards := [shard]
  outAt tokens h := (FirstToken.lastToken tokens).getD h 0
  hiddenSize_pos := Nat.one_pos
  shards_ne_nil := by decide

/-- The stock layer: the cache grows by the tokens. -/
def decoderLayer (call : DecoderCall Int Unit) :
    Except PyExc (Tensor Int × Option (KVPair Int) × SharedKvStates String Int) :=
  let past := (call.pastKeyValues.bind id).elim 0 fun kv => kv.1.shape.getD 2 0
  let present := Tensor.zeros [call.hiddenStates.shape.getD 0 0, 1,
    past + call.hiddenStates.shape.getD 1 0, 1]
  .ok (call.hiddenStates, some (present, present), call.sharedKvStates)

def block (isKvSharedLayer : Bool) : WrappedGemma4Block Int Unit where
  variant := .gemma4Unified
  isKvSharedLayer := isKvSharedLayer
  layerType := "full_attention"
  createCausalMask := fun _ _ _ => ()
  createSlidingWindowCausalMask := fun _ _ _ => ()
  decoderLayer := decoderLayer

theorem stockCausal (isKvSharedLayer : Bool) :
    (block isKvSharedLayer).StockCausal spec shard where
  shards := rfl
  kvHeads_pos := by decide
  keyDim_pos := by decide
  decoderLayer := by
    intro rows batch p n hiddenStates perLayerInput shared past _ hn hcontinues hpast
    have hpastLength : (past.elim 0 fun kv => kv.1.shape.getD 2 0) = p := by
      rcases hpast with ⟨rfl, rfl⟩ | ⟨kv, rfl, hkv⟩
      · rfl
      · rw [Option.elim_some, hkv.key_shape]
        rfl
    have hsizes : [hiddenStates.shape.getD 0 0, 1,
        (past.elim 0 fun kv => kv.1.shape.getD 2 0) + hiddenStates.shape.getD 1 0, 1] =
        [batch, 1, p + n, 1] := by
      rw [hpastLength, hcontinues.shape]
      rfl
    refine ⟨hiddenStates, (Tensor.zeros [batch, 1, p + n, 1], Tensor.zeros [batch, 1, p + n, 1]),
      shared, ?_, hcontinues.shape, fun i j h hi hj hh => ?_, rfl, rfl,
      fun _ _ _ _ _ _ _ _ => Tensor.get_zeros _ _, fun _ _ _ _ _ _ _ _ => Tensor.get_zeros _ _⟩
    · rw [← hsizes]
      rfl
    · obtain rfl : h = 0 := by
        have : h < 1 := hh
        omega
      show _ = (FirstToken.lastToken ((rows i).take (p + j + 1))).getD 0 0
      rw [FirstToken.lastToken_take (hcontinues.token i j hi hj)]
      show _ = (hiddenStates.token i j ++ _).getD 0 0
      rw [Tensor.token, hcontinues.shape]
      rfl

/-- Two tokens behind a prefix of one. -/
def tokens : Tensor Int := Tensor.ofFn [1, 2, 1] fun ix => 8 + ix.getD 1 0

def past : KVPair Int := (Tensor.zeros [1, 1, 1], Tensor.zeros [1, 1, 1])

def donor : KVPair Int := (Tensor.zeros [1, 1, 3, 1], Tensor.zeros [1, 1, 3, 1])

def seeded : SharedKvStates String Int := AList.insert "full_attention" donor ∅

theorem behindPrefix_ordinary :
    (block false).BehindPrefix 1 1 2 1 tokens none (some [past]) ∅ where
  batch_pos := by decide
  shape := rfl
  input_shape _ h := nomatch h
  ordinary _ := by
    refine ⟨spec, shard, fun _ => [[7], [8], [9]], past, stockCausal false, rfl, rfl,
      ⟨rfl, rfl, fun _ _ _ _ _ _ => Tensor.get_zeros _ _,
        fun _ _ _ _ _ _ => Tensor.get_zeros _ _⟩, rfl, fun _ h => (nomatch h), ?_⟩
    intro i j hi hj
    obtain rfl : i = 0 := by omega
    obtain rfl | rfl : j = 0 ∨ j = 1 := by omega
    · decide
    · decide
  consumer h := nomatch h

end PassThrough

open PassThrough in
/-- An ordinary block in chunks of one token. -/
theorem WrappedGemma4Block.chunk_positions_iff_example :
    ∃ newKvs shared', forwardChunked ((block false).recording (block false).forward) tokens
        (some [past]) 1 none (∅, []) = .ok (tokens, newKvs, shared', [1, 2]) :=
  (chunk_positions_iff (block false) behindPrefix_ordinary (by rfl) (by decide) (by decide)).mpr
    fun h => nomatch h

open PassThrough in
/-- A consumer in chunks of one token, behind a prefix of one: it runs both at position 2. -/
theorem WrappedGemma4Block.consumer_chunks_repeat_positions :
    ((forwardChunked ((block true).recording (block true).forward) tokens none 1 none
      (seeded, [])).map fun r => r.2.2.2) = .ok [2, 2] ∧ [2, 2] ≠ pyRange 1 3 := by
  constructor <;> decide +kernel

end Drift
