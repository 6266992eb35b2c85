/-
  Training over the swarm: the gradients that the client gets are those of the model.

  A block is differentiable, its backward task returns the vector-Jacobian product of its forward
  task (`DiffBlock.PullsBack`), and forward it works on the rows of a batch independently.  Then it
  does so backward too (`DiffBlock.ForwardOnRows.rowWise`): a row of the outputs depends on no other
  row of the inputs.

  So `_RemoteSequentialAutogradFunction` is a differentiable function with the right backward pass
  (`autograd_vjp`), whatever the routes, the batches and the failures of the two passes: what it
  computes are all blocks behind their prompts (`Swarm.compute`), and what it gives back are the
  vector-Jacobian products of this to the inputs and to the prompts of every block.
-/
import Drift.Client.MicroBatching
import Drift.Server.RequestGradients

namespace Drift

/-! ## The rows of a gradient -/

/-- The block acts on the rows of a batch independently, forward. -/
def DiffBlock.ForwardOnRows (block : DiffBlock ℝ) : Prop :=
  ∀ (x : Tensor ℝ) (bounds : Nat × Nat), x.shape.length = 3 → bounds.1 < bounds.2 →
    bounds.2 ≤ x.shape.getD 0 0 → block.forward (rows bounds x) = rows bounds (block.forward x)

section Rows

variable {b n h : Nat} {bounds : Nat × Nat}

/-- The entries of some rows among those of all. -/
def rowEntries (hle : bounds.2 ≤ b) (i : Entry (bounds.2 - bounds.1) n h) : Entry b n h :=
  (⟨i.1 + bounds.1, by omega⟩, i.2)

theorem rowEntries_injective (hle : bounds.2 ≤ b) : Function.Injective
    (rowEntries hle : Entry (bounds.2 - bounds.1) n h → Entry b n h) := by
  rintro ⟨i, j⟩ ⟨i', j'⟩ heq
  obtain ⟨hrow, rfl⟩ := Prod.mk.inj heq
  have hrow : (i : Nat) + bounds.1 = i' + bounds.1 := Fin.mk.inj hrow
  rw [show i = i' from Fin.ext (Nat.add_right_cancel hrow)]

theorem mem_range_rowEntries (hle : bounds.2 ≤ b) {k : Entry b n h} : k ∈ Set.range
      (rowEntries hle : Entry (bounds.2 - bounds.1) n h → Entry b n h)
    ↔ bounds.1 ≤ (k.1 : Nat) ∧ (k.1 : Nat) < bounds.2 := by
  constructor
  · rintro ⟨i, rfl⟩
    show bounds.1 ≤ (i.1 : Nat) + bounds.1 ∧ (i.1 : Nat) + bounds.1 < bounds.2
    omega
  · rintro ⟨hlo, hhi⟩
    refine ⟨(⟨k.1 - bounds.1, by omega⟩, k.2), Prod.ext (Fin.ext ?_) rfl⟩
    show (k.1 : Nat) - bounds.1 + bounds.1 = k.1
    omega

theorem entries_rows {t : Tensor ℝ} (ht : t.shape = [b, n, h]) (hlt : bounds.1 < bounds.2)
    (hle : bounds.2 ≤ b) : entries (bounds.2 - bounds.1) n h (rows bounds t)
      = fun i => entries b n h t (rowEntries hle i) := by
  funext i
  exact get_rows ht (Nat.le_of_lt hlt) hle i.1.isLt i.2.1.isLt i.2.2.isLt

/-- Rows of tensors that agree on them. -/
theorem rows_congr {t u : Tensor ℝ} (ht : t.shape = [b, n, h]) (hu : u.shape = [b, n, h])
    (hlt : bounds.1 < bounds.2) (hle : bounds.2 ≤ b)
    (heq : ∀ k ∈ Set.range (rowEntries hle : Entry (bounds.2 - bounds.1) n h → Entry b n h),
      entries b n h t k = entries b n h u k) : rows bounds t = rows bounds u := by
  rw [← ofEntries_entries (shape_rows ht (Nat.le_of_lt hlt) hle),
    ← ofEntries_entries (shape_rows hu (Nat.le_of_lt hlt) hle), entries_rows ht hlt hle,
    entries_rows hu hlt hle]
  exact congrArg ofEntries (funext fun i => heq _ ⟨i, rfl⟩)

variable {block : DiffBlock ℝ}

/-- **A row of the outputs depends on that row only.** -/
theorem DiffBlock.ForwardOnRows.entries_congr (hblock : block.ForwardOnRows) {t u : Tensor ℝ}
    (ht : t.shape = [b, n, h]) (hu : u.shape = [b, n, h]) (k : Entry b n h)
    (heq : ∀ i : Entry b n h, i.1 = k.1 → entries b n h t i = entries b n h u i) :
    entries b n h (block.forward t) k = entries b n h (block.forward u) k := by
  -- the batch of this row alone
  have hle : ((k.1 : Nat), (k.1 : Nat) + 1).2 ≤ b := k.1.isLt
  have hlt : ((k.1 : Nat), (k.1 : Nat) + 1).1 < ((k.1 : Nat), (k.1 : Nat) + 1).2 :=
    Nat.lt_succ_self _
  have hrows : rows ((k.1 : Nat), (k.1 : Nat) + 1) t = rows ((k.1 : Nat), (k.1 : Nat) + 1) u := by
    refine rows_congr ht hu hlt hle fun i hi => heq i (Fin.ext ?_)
    have hi := (mem_range_rowEntries hle).mp hi
    show (i.1 : Nat) = k.1
    omega
  have hsame : rows ((k.1 : Nat), (k.1 : Nat) + 1) (block.forward t)
      = rows ((k.1 : Nat), (k.1 : Nat) + 1) (block.forward u) := by
    rw [← hblock t _ (by rw [ht]; rfl) hlt (by rw [ht]; exact hle), hrows,
      hblock u _ (by rw [hu]; rfl) hlt (by rw [hu]; exact hle)]
  obtain ⟨i, hi⟩ := (mem_range_rowEntries (n := n) (h := h) hle (k := k)).mpr
    ⟨Nat.le_refl _, Nat.lt_succ_self _⟩
  have hentry := congrArg (fun r => entries _ n h r i) hsame
  simp only [entries_rows ((block.shape_forward t).trans ht) hlt hle,
    entries_rows ((block.shape_forward u).trans hu) hlt hle, hi] at hentry
  exact hentry

/-- **Rows forward are rows backward.** -/
theorem DiffBlock.ForwardOnRows.rowWise (hblock : block.ForwardOnRows)
    (hvjp : ∀ b n h, block.PullsBack b n h) : block.RowWise := by
  refine ⟨hblock, fun x g bounds hndim hg hlt hle => ?_⟩
  obtain ⟨b, n, h, hx⟩ : ∃ b n h, x.shape = [b, n, h] := List.length_eq_three.mp hndim
  replace hg : g.shape = [b, n, h] := hg.trans hx
  rw [hx] at hle
  replace hle : bounds.2 ≤ b := hle
  have hrowsX := shape_rows hx (Nat.le_of_lt hlt) hle
  have hrowsG := shape_rows hg (Nat.le_of_lt hlt) hle
  have hwhole := hvjp b n h x g hx hg
  have hpart := hvjp _ n h _ _ hrowsX hrowsG
  have hrestrict : HasVjpAt
      (fun v => entries (bounds.2 - bounds.1) n h (block.forward (ofEntries v)))
      (fun i => entries b n h x (rowEntries hle i)) (fun i => entries b n h g (rowEntries hle i))
      fun i => entries b n h (block.backward x g) (rowEntries hle i) := by
    refine HasVjpAt.restrict (rowEntries_injective hle) (rowEntries_injective hle)
      (fun v j => ?_) (fun k hk v v' heq => ?_) hwhole.vjp
    · have hrows : ofEntries (fun i => v (rowEntries hle i)) = rows bounds (ofEntries v) := by
        rw [← ofEntries_entries (shape_rows (shape_ofEntries v) (Nat.le_of_lt hlt) hle),
          entries_rows (shape_ofEntries v) hlt hle, entries_ofEntries]
      rw [hrows, hblock (ofEntries v) bounds rfl hlt hle,
        entries_rows ((block.shape_forward _).trans (shape_ofEntries v)) hlt hle]
    · refine hblock.entries_congr (shape_ofEntries v) (shape_ofEntries v') k fun i hi => ?_
      rw [entries_ofEntries, entries_ofEntries]
      apply heq
      rw [mem_range_rowEntries hle, hi, ← mem_range_rowEntries hle]
      exact hk
  have hentries : entries (bounds.2 - bounds.1) n h (block.backward (rows bounds x) (rows bounds g))
      = entries (bounds.2 - bounds.1) n h (rows bounds (block.backward x g)) := by
    rw [entries_rows hwhole.shape_vjp hlt hle]
    refine hpart.vjp.unique ?_
    rw [entries_rows hx hlt hle, entries_rows hg hlt hle]
    exact hrestrict
  rw [← ofEntries_entries hpart.shape_vjp,
    ← ofEntries_entries (shape_rows hwhole.shape_vjp (Nat.le_of_lt hlt) hle), hentries]

end Rows

/-! ## Both passes -/

/-- A forward pass with prompts longer than the sequence does not get through. -/
theorem autogradForward_long {α : Type} [Zero α] [Add α] {swarm : Swarm α} {maxTokensInBatch : Nat}
    {x : Tensor α} {prompts : List (Tensor α)} {b n hid p : Nat} (hx : x.shape = [b, n, hid])
    (hb : 0 < b) (hn : 0 < n) (hp : n < p) (hpos : 0 < swarm.blocks.length)
    (hlength : prompts.length = swarm.blocks.length)
    (hprompts : ∀ prompt ∈ prompts, isDummy prompt = false ∧ prompt.shape = [b, p, hid])
    (attempts : Nat → List ForwardAttempt) (outputs : Tensor α) (ctx : AutogradContext α) :
    autogradForward swarm maxTokensInBatch x prompts attempts ≠ some (.ok (outputs, ctx)) := by
  intro hforward
  obtain ⟨prompt, rest, rfl⟩ := List.exists_cons_of_length_pos (hlength ▸ hpos)
  have hall : ¬ (prompt :: rest).all isDummy = true := by
    rw [List.all_cons, (hprompts prompt List.mem_cons_self).1]
    exact Bool.false_ne_true
  have hbatches : splitPromptBatches (max (maxTokensInBatch / n) 1) (prompt :: rest)
      = (batchBounds maxTokensInBatch b n).map fun bounds => (prompt :: rest).map (rows bounds) := by
    rw [splitPromptBatches, List.head?_cons, Option.map_some,
      (hprompts prompt List.mem_cons_self).2]
    rfl
  rw [autogradForward, microBatchSize_eq hx hn] at hforward
  simp only [split_eq hx, if_neg hall, hbatches] at hforward
  obtain ⟨gathered, hgathered, hbody⟩ := Option.map_eq_some_iff.mp hforward
  obtain ⟨records, rfl, -⟩ := except_bind_eq_ok.mp hbody
  obtain ⟨-, hreturned⟩ := gather_mapIdx hgathered
  -- the first batch fails
  obtain ⟨bounds, boundsRest, hbounds⟩ := List.exists_cons_of_ne_nil
    (@batchBounds_ne_nil maxTokensInBatch b n)
  obtain ⟨hlt, hle⟩ := mem_batchBounds (by rw [hbounds]; exact List.mem_cons_self) hb
  obtain ⟨record, -, hrun⟩ := hreturned 0 (rows bounds x, (prompt :: rest).map (rows bounds)) (by
    rw [hbounds]
    rfl)
  refine sequentialForward_long (shape_rows hx (Nat.le_of_lt hlt) hle) hn hp hpos
    ((List.length_map _).trans hlength) (fun q hq => ?_) _ _ hrun
  obtain ⟨whole, hwhole, rfl⟩ := List.mem_map.mp hq
  obtain ⟨hdummy, hshape⟩ := hprompts whole hwhole
  exact ⟨isDummy_rows hshape hdummy hlt hle, shape_rows hshape (Nat.le_of_lt hlt) hle⟩

/-- All blocks behind their prompts, on one machine. -/
noncomputable def Swarm.compute (swarm : Swarm ℝ) (prompts : List (Tensor ℝ)) (x : Tensor ℝ) :
    Tensor ℝ :=
  Layer.chain (swarm.layers prompts) x

/-- Fitting prompts, all dummies or none. -/
theorem PromptTensor.dummy_or_perBlock {numBlocks b n h : Nat} {prompts : List (Tensor ℝ)}
    (hprompts : PromptTensor numBlocks [b, n, h] prompts)
    (hfits : DeepPrompts numBlocks [b, n, h] prompts) :
    prompts.all isDummy = true ∨
      prompts ≠ [] ∧ ∃ p, PromptPerBlock numBlocks b n p h prompts ∧ b * (p * h) ≠ 0 := by
  by_cases hall : prompts.all isDummy = true
  · exact .inl hall
  obtain ⟨hlength, p, hshape⟩ := hprompts.resolve_left hall
  obtain ⟨-, hfits⟩ := hfits.resolve_left hall
  have hne : prompts ≠ [] := fun hnil => hall (hnil ▸ rfl)
  obtain ⟨q, hq⟩ := List.exists_mem_of_ne_nil _ hne
  obtain ⟨hdummy, b', n', h', p', hx, hprompt, hp⟩ := hfits q hq
  cases hx
  have hsame : q.shape = [b, p, h] := hshape q hq
  obtain rfl : p' = p := by
    rw [hsame] at hprompt
    simpa using hprompt.symm
  refine .inr ⟨hne, p', ⟨hlength, hp, hshape⟩, fun hzero => ?_⟩
  rw [isDummy, Tensor.numel, hsame] at hdummy
  refine of_decide_eq_false hdummy ?_
  simpa using hzero

/-- **The gradients are those of the model.**  If the two passes return, whatever happens to any of
    their attempts, then the outputs are what all blocks behind their prompts make of the inputs,
    and the gradients are the vector-Jacobian products of this: to the inputs, and to the prompt of
    every block if there are prompts. -/
theorem autograd_vjp (swarm : Swarm ℝ) (hrows : ∀ block ∈ swarm.blocks, block.ForwardOnRows)
    (hvjp : ∀ block ∈ swarm.blocks, ∀ b n h, block.PullsBack b n h) (maxTokensInBatch : Nat)
    {b n h : Nat} (hb : 0 < b) (hn : 0 < n) (x g : Tensor ℝ) (hx : x.shape = [b, n, h])
    (hg : g.shape = [b, n, h]) (prompts : List (Tensor ℝ))
    (hprompts : PromptTensor swarm.blocks.length [b, n, h] prompts)
    (attempts : Nat → List ForwardAttempt) (outputs : Tensor ℝ) (ctx : AutogradContext ℝ)
    (hforward : autogradForward swarm maxTokensInBatch x prompts attempts
      = some (.ok (outputs, ctx)))
    (gradAttempts : Nat → List BackwardAttempt) (gradInputs : Tensor ℝ)
    (gradPrompts : Option (List (Tensor ℝ)))
    (hbackward : autogradBackward swarm maxTokensInBatch ctx g gradAttempts
      = some (.ok (gradInputs, gradPrompts))) :
    outputs = swarm.compute prompts x ∧
    TensorVjp b n n h (swarm.compute prompts) x g gradInputs ∧
    (gradPrompts = none ↔ prompts.all isDummy = true) ∧
    ∀ grads, gradPrompts = some grads → grads.length = swarm.blocks.length ∧
      ∀ (i : Nat) (q y : Tensor ℝ), prompts[i]? = some q → grads[i]? = some y →
        TensorVjp b (q.shape.getD 1 0) n h (fun q => swarm.compute (prompts.set i q) x) q g y := by
  have hblocks : ∀ block ∈ swarm.blocks, block.RowWise :=
    fun block hblock => (hrows block hblock).rowWise (hvjp block hblock)
  have hpulls : ∀ block ∈ swarm.blocks, block.PullsBack b n h :=
    fun block hblock => hvjp block hblock b n h
  rcases hprompts.fits_or_long with hfits | ⟨hpos, hlength, p, hp, hlong⟩
  swap
  · exact absurd hforward (autogradForward_long hx hb hn hp hpos hlength hlong _ _ _)
  obtain ⟨houtputs, hctx⟩ := autogradForward_spec hblocks hx hb hn hfits hforward
  have hgrads := autogradBackward_spec hblocks hx hb hn hfits hg hctx hbackward
  obtain ⟨rfl, rfl⟩ := Prod.mk.inj hgrads
  refine ⟨houtputs, tensorVjp_chain hpulls (splitPrompts_fits hfits) hx hg, ?_⟩
  rcases hprompts.dummy_or_perBlock hfits with hall | ⟨hne, p, hper, hsize⟩
  · have hnil : (Layer.chainPull (swarm.layers prompts) x g).2 = [] := by
      rw [Swarm.layers, splitPrompts, if_pos hall]
      exact chainPull_replicate_none _ _ _ _
    rw [if_pos hnil]
    exact ⟨iff_of_true rfl hall, fun _ hsome => by cases hsome⟩
  · have hlayers : ∀ qs : List (Tensor ℝ), qs ≠ [] →
        PromptPerBlock swarm.blocks.length b n p h qs →
        swarm.layers qs = promptLayers swarm.blocks (qs.map some) := by
      intro qs hqs hper
      rw [Swarm.layers, hper.splitPrompts_eq hqs hsize]
    rw [hlayers prompts hne hper]
    obtain ⟨hcount, hvjps⟩ := tensorVjp_chain_prompt hpulls hper hsize hx hg
    have hsome : (Layer.chainPull (promptLayers swarm.blocks (prompts.map some)) x g).2 ≠ [] := by
      intro hnil
      rw [hnil] at hcount
      exact hne (List.length_eq_zero_iff.mp hcount.symm)
    rw [if_neg hsome]
    refine ⟨iff_of_false (fun hnone => by cases hnone) fun hall => ?_, ?_⟩
    · obtain ⟨q, hq⟩ := List.exists_mem_of_ne_nil _ hne
      have hdummy := List.all_eq_true.mp hall q hq
      rw [hper.not_isDummy hsize hq] at hdummy
      cases hdummy
    · rintro grads ⟨⟩
      refine ⟨hcount.trans hper.length_eq, fun i q y hq hy => ?_⟩
      have hshape := hper.shape q (List.mem_of_getElem? hq)
      rw [show q.shape.getD 1 0 = p by rw [hshape]; rfl]
      have hcompute : ∀ t : Tensor ℝ, t.shape = [b, p, h] → swarm.compute (prompts.set i t) x
          = Layer.chain (promptLayers swarm.blocks ((prompts.set i t).map some)) x := by
        intro t ht
        rw [Swarm.compute, hlayers _ (by simpa using hne) (hper.set ht)]
      have hpull := hvjps i q y hq hy
      refine ⟨fun t ht => (hcompute t ht).symm ▸ hpull.shape_apply t ht, hpull.shape_vjp, ?_⟩
      simpa only [hcompute _ (shape_ofEntries _)] using hpull.vjp

/-! ## Two blocks that square -/

theorem squareBlock_forwardOnRows : squareBlock.ForwardOnRows := by
  intro x bounds hndim hlt hle
  refine Tensor.ext_get rfl fun ix hix => ?_
  have hin : InBounds x.shape (ix.modify 0 (· + Tensor.clampIndex (x.shape.getD 0 0) bounds.1)) :=
    Tensor.inBounds_of_slice (by omega) hix
  have hwhole : (rows bounds (squareBlock.forward x)).get ix
      = (squareBlock.forward x).get
        (ix.modify 0 (· + Tensor.clampIndex (x.shape.getD 0 0) bounds.1)) :=
    Tensor.get_slice_eq hix
  rw [hwhole]
  refine (Tensor.get_ofFn _ hix).trans ((Tensor.get_ofFn _ hin).trans ?_).symm
  rw [rows, Tensor.get_slice_eq hix]

/-- Both blocks on one server each. -/
def squareSwarm : Swarm ℝ := ⟨[squareBlock, squareBlock], none⟩

def squareTable : RoutingTable := ⟨[[⟨0, 0, 1⟩], [⟨1, 1, 2⟩]], fun b => b⟩

theorem squareTable_complete : squareTable.Complete 2 := by
  intro b hb
  rcases b with _ | _ | b
  · exact ⟨_, rfl, by decide, by decide⟩
  · exact ⟨_, rfl, by decide, by decide⟩
  · omega

def squareForwards : List ForwardAttempt := List.replicate 2 ⟨squareTable, none⟩

def squarePrompts : List (Tensor ℝ) := List.replicate 2 (ones 2 1 1)

/-- Two rows in two batches, with a prompt for the first of two positions. -/
theorem autograd_vjp_square : ∃ outputs ctx gradInputs gradPrompts,
    autogradForward squareSwarm 2 (ones 2 2 1) squarePrompts (fun _ => squareForwards)
      = some (.ok (outputs, ctx)) ∧
    autogradBackward squareSwarm 2 ctx (ones 2 2 1) (fun _ => List.replicate 2 ⟨[], none⟩)
      = some (.ok (gradInputs, gradPrompts)) ∧
    outputs = squareSwarm.compute squarePrompts (ones 2 2 1) ∧
    TensorVjp 2 2 2 1 (squareSwarm.compute squarePrompts) (ones 2 2 1) (ones 2 2 1) gradInputs ∧
    gradPrompts ≠ none := by
  have hmem : ∀ block ∈ squareSwarm.blocks, block = squareBlock :=
    fun block hblock => List.eq_of_mem_replicate (n := 2) hblock
  have hrows : ∀ block ∈ squareSwarm.blocks, block.ForwardOnRows :=
    fun block hblock => hmem block hblock ▸ squareBlock_forwardOnRows
  have hvjp : ∀ block ∈ squareSwarm.blocks, ∀ b n h, block.PullsBack b n h :=
    fun block hblock => hmem block hblock ▸ squareBlock_pullsBack
  have hblocks : ∀ block ∈ squareSwarm.blocks, block.RowWise :=
    fun block hblock => (hrows block hblock).rowWise (hvjp block hblock)
  have hprompt : ∀ prompt ∈ squarePrompts, prompt = ones 2 1 1 :=
    fun prompt hprompt => List.eq_of_mem_replicate hprompt
  have hdummy : isDummy (ones 2 1 1) = false := rfl
  have hprompts : PromptTensor 2 [2, 2, 1] squarePrompts :=
    .inr ⟨rfl, 1, fun prompt hmem => hprompt prompt hmem ▸ rfl⟩
  have hfits : DeepPrompts 2 [2, 2, 1] squarePrompts := .inr ⟨rfl, fun prompt hmem =>
    hprompt prompt hmem ▸ ⟨hdummy, 2, 2, 1, 1, rfl, rfl, by decide⟩⟩
  have hforwards : ForwardRecovers 2 none 2 squareForwards :=
    .good ⟨rfl, squareTable_complete⟩ (.good ⟨rfl, squareTable_complete⟩ (.finished 0 []))
  obtain ⟨ctx, hforward⟩ : ∃ ctx, autogradForward squareSwarm 2 (ones 2 2 1) squarePrompts
      (fun _ => squareForwards)
        = some (.ok (squareSwarm.compute squarePrompts (ones 2 2 1), ctx)) :=
    autogradForward_recovers hblocks rfl Nat.two_pos Nat.two_pos hfits fun _ => hforwards
  obtain ⟨-, hctx⟩ := autogradForward_spec hblocks rfl Nat.two_pos Nat.two_pos hfits hforward
  have hbackward : autogradBackward squareSwarm 2 ctx (ones 2 2 1)
      (fun _ => List.replicate 2 ⟨[], none⟩) = some (.ok _) :=
    autogradBackward_recovers hblocks rfl Nat.two_pos Nat.two_pos hfits rfl hctx fun _ _ _ =>
      .good ⟨rfl, fun h => absurd rfl h⟩ (.good ⟨rfl, fun h => absurd rfl h⟩ (.finished 0 []))
  obtain ⟨houtputs, hinputs, hnone, -⟩ := autograd_vjp squareSwarm hrows hvjp 2 Nat.two_pos
    Nat.two_pos (ones 2 2 1) (ones 2 2 1) rfl rfl squarePrompts hprompts _ _ ctx hforward _ _ _
    hbackward
  refine ⟨_, ctx, _, _, hforward, hbackward, houtputs, hinputs, fun hnil => ?_⟩
  have hall := hnone.mp hnil
  have hfalse : squarePrompts.all isDummy = false := rfl
  rw [hfalse] at hall
  cases hall

end Drift
