/-
  What `run_rpc_backward` returns, as a derivative: the vector-Jacobian product of
  `run_rpc_forward`.

  A tensor of shape `[batch, length, hidden]` is read as a point of a coordinate space (`entries`),
  a request as a function between two of them.  A block is differentiable and its backward task
  returns its vector-Jacobian product; then the first tensor of a backward response is the
  vector-Jacobian product of the forward request to its hidden states, and the others are those to
  the prompts, in the order of the blocks (`runRpcBackward_vjp`).
-/
import Drift.Lib.Vjp
import Drift.Server.RpcForward
import Mathlib.Analysis.Calculus.Deriv.Mul

namespace Drift

/-! ## Tensors as coordinates -/

/-- The indices of a tensor of shape `[b, n, h]`. -/
abbrev Entry (b n h : Nat) := Fin b × Fin n × Fin h

/-- The entries of a tensor. -/
def entries (b n h : Nat) (t : Tensor ℝ) : Entry b n h → ℝ := fun i => t.get [i.1, i.2.1, i.2.2]

/-- The tensor of the given entries. -/
def ofEntries {b n h : Nat} (v : Entry b n h → ℝ) : Tensor ℝ :=
  Tensor.ofFn [b, n, h] fun ix =>
    if hix : ix.getD 0 0 < b ∧ ix.getD 1 0 < n ∧ ix.getD 2 0 < h then
      v (⟨_, hix.1⟩, ⟨_, hix.2.1⟩, ⟨_, hix.2.2⟩)
    else 0

section Entries

variable {b n h : Nat}

theorem inBounds_entry (i : Entry b n h) : InBounds [b, n, h] [i.1, i.2.1, i.2.2] :=
  ⟨i.1.isLt, i.2.1.isLt, i.2.2.isLt, trivial⟩

@[simp] theorem shape_ofEntries (v : Entry b n h → ℝ) : (ofEntries v).shape = [b, n, h] := rfl

@[simp] theorem entries_ofEntries (v : Entry b n h → ℝ) : entries b n h (ofEntries v) = v := by
  funext i
  rw [entries, ofEntries, Tensor.get_ofFn _ (inBounds_entry i)]
  exact dif_pos ⟨i.1.isLt, i.2.1.isLt, i.2.2.isLt⟩

theorem ofEntries_entries {t : Tensor ℝ} (ht : t.shape = [b, n, h]) :
    ofEntries (entries b n h t) = t := by
  refine Tensor.ext_get ht.symm fun ix hix => ?_
  obtain ⟨i, j, k, rfl, hi, hj, hk⟩ := hix.exists_three
  exact congrFun (entries_ofEntries (entries b n h t)) (⟨i, hi⟩, ⟨j, hj⟩, ⟨k, hk⟩)

end Entries

/-! ## Vector-Jacobian products of functions on tensors -/

/-- `F` takes tensors of shape `[b, m, h]` to tensors of shape `[b, n, h]`, and `y` is its
    vector-Jacobian product at `x` for `g`. -/
structure TensorVjp (b m n h : Nat) (F : Tensor ℝ → Tensor ℝ) (x g y : Tensor ℝ) : Prop where
  shape_apply : ∀ t, t.shape = [b, m, h] → (F t).shape = [b, n, h]
  shape_vjp : y.shape = [b, m, h]
  vjp : HasVjpAt (fun v : Entry b m h → ℝ => entries b n h (F (ofEntries v))) (entries b m h x)
    (entries b n h g) (entries b m h y)

/-- The same for a request, which answers all tensors of that shape. -/
def RequestVjp (b m n h : Nat) (request : Tensor ℝ → Except PyExc (Tensor ℝ))
    (x g y : Tensor ℝ) : Prop :=
  ∃ F : Tensor ℝ → Tensor ℝ, (∀ t, t.shape = [b, m, h] → request t = .ok (F t)) ∧
    TensorVjp b m n h F x g y

/-- The backward task of a block computes the vector-Jacobian product of its forward task. -/
def DiffBlock.PullsBack (block : DiffBlock ℝ) (b n h : Nat) : Prop :=
  ∀ x g : Tensor ℝ, x.shape = [b, n, h] → g.shape = [b, n, h] →
    TensorVjp b n n h block.forward x g (block.backward x g)

section TensorVjp

variable {b l m n p h : Nat} {F F' : Tensor ℝ → Tensor ℝ} {x g y z : Tensor ℝ}

/-- The chain rule for tensors: gradients are pulled back through the later map first. -/
theorem TensorVjp.comp (hF' : TensorVjp b m n h F' (F x) g z) (hF : TensorVjp b l m h F x z y)
    (hx : x.shape = [b, l, h]) : TensorVjp b l n h (fun t => F' (F t)) x g y where
  shape_apply t ht := hF'.shape_apply _ (hF.shape_apply t ht)
  shape_vjp := hF.shape_vjp
  vjp := by
    have hentries : entries b m h (F (ofEntries (entries b l h x))) = entries b m h (F x) := by
      rw [ofEntries_entries hx]
    have hcomp := (hentries ▸ hF'.vjp).comp hF.vjp
    have hmiddle : ∀ v : Entry b l h → ℝ,
        ofEntries (entries b m h (F (ofEntries v))) = F (ofEntries v) :=
      fun v => ofEntries_entries (hF.shape_apply _ (shape_ofEntries v))
    simpa only [hmiddle] using hcomp

/-- Adding a tensor to fixed entries of another, as a function of the former. -/
theorem tensorVjp_addAt {e : Entry b m h → Entry b n h} (he : Function.Injective e)
    (c : Tensor ℝ) (hshape : ∀ t, t.shape = [b, m, h] → (F t).shape = [b, n, h])
    (hin : ∀ t, t.shape = [b, m, h] → ∀ j,
      entries b n h (F t) (e j) = entries b n h c (e j) + entries b m h t j)
    (hout : ∀ t, t.shape = [b, m, h] → ∀ k, k ∉ Set.range e →
      entries b n h (F t) k = entries b n h c k)
    (hy : y.shape = [b, m, h]) (hget : ∀ j, entries b m h y j = entries b n h g (e j)) :
    TensorVjp b m n h F x g y where
  shape_apply := hshape
  shape_vjp := hy
  vjp := by
    rw [funext hget]
    refine hasVjpAt_addAt he (entries b n h c) (fun v j => ?_) (fun v k hk => ?_) _ _
    · rw [hin _ (shape_ofEntries v), entries_ofEntries]
    · exact hout _ (shape_ofEntries v) k hk

/-- The entries of hidden states behind a prompt. -/
theorem entries_promptAdd {prompt : Tensor ℝ} (hx : x.shape = [b, n, h])
    (hprompt : prompt.shape = [b, p, h]) (k : Entry b n h) :
    entries b n h (promptAdd (some prompt) x) k
      = if (k.2.1 : Nat) < p then entries b n h x k + prompt.get [k.1, k.2.1, k.2.2]
        else entries b n h x k := by
  show (x.patch _).get [(k.1 : Nat), k.2.1, k.2.2] = _
  rw [Tensor.get_patch _ (by rw [hx]; exact inBounds_entry k), hprompt]
  show (if (k.2.1 : Nat) < p then some _ else none).getD _ = _
  split <;> rfl

/-- The hidden states behind their prompt depend on them as they are. -/
theorem tensorVjp_promptAdd {prompt : Option (Tensor ℝ)} (hfits : PromptFits [b, n, h] prompt)
    (hg : g.shape = [b, n, h]) : TensorVjp b n n h (promptAdd prompt) x g g := by
  refine tensorVjp_addAt Function.injective_id (promptAdd prompt (Tensor.zeros [b, n, h]))
    (fun t ht => (shape_promptAdd prompt t).trans ht) (fun t ht k => ?_)
    (fun t ht k hk => absurd ⟨k, rfl⟩ hk) hg (fun _ => rfl)
  have hzero : entries b n h (Tensor.zeros [b, n, h]) k = 0 := Tensor.get_zeros _ _
  rcases prompt with _ | prompt
  · show entries b n h t k = entries b n h (Tensor.zeros [b, n, h]) k + _
    rw [hzero, zero_add]
  · obtain ⟨-, b', n', h', p, heq, hprompt, -⟩ := hfits
    cases heq
    rw [id, entries_promptAdd ht hprompt, entries_promptAdd rfl hprompt, hzero]
    split
    · rw [zero_add, add_comm]
    · rw [zero_add]

/-- The first positions among all positions. -/
def firstEntries (hp : p ≤ n) (i : Entry b p h) : Entry b n h := (i.1, Fin.castLE hp i.2.1, i.2.2)

theorem firstEntries_injective (hp : p ≤ n) :
    Function.Injective (firstEntries hp : Entry b p h → Entry b n h) := by
  rintro ⟨i, j, k⟩ ⟨i', j', k'⟩ heq
  simp only [firstEntries, Prod.mk.injEq, Fin.castLE_inj] at heq
  obtain ⟨rfl, rfl, rfl⟩ := heq
  rfl

theorem mem_range_firstEntries (hp : p ≤ n) {k : Entry b n h} (hk : (k.2.1 : Nat) < p) :
    k ∈ Set.range (firstEntries hp : Entry b p h → Entry b n h) :=
  ⟨(k.1, ⟨k.2.1, hk⟩, k.2.2), rfl⟩

/-- The first positions of a gradient. -/
theorem entries_slice (hg : g.shape = [b, n, h]) (hp : p ≤ n) :
    (g.slice 1 0 (p : Int)).shape = [b, p, h] ∧
      ∀ j, entries b p h (g.slice 1 0 (p : Int)) j = entries b n h g (firstEntries hp j) := by
  have haxis : p ≤ g.shape.getD 1 0 := by
    rw [hg]
    exact hp
  have hshape : g.shape.set 1 (p - 0) = [b, p, h] := by
    rw [hg]
    rfl
  refine ⟨(Tensor.shape_slice_of_le (Nat.zero_le p) haxis).trans hshape, fun j => ?_⟩
  exact Tensor.get_slice _ (Nat.zero_le p) haxis (hshape ▸ inBounds_entry j)

/-- The hidden states behind a prompt depend on the prompt at its positions. -/
theorem tensorVjp_prompt (hp : p ≤ n) (hx : x.shape = [b, n, h]) (hg : g.shape = [b, n, h])
    (q : Tensor ℝ) : TensorVjp b p n h (fun q => promptAdd (some q) x) q g
      (g.slice 1 0 (p : Int)) := by
  refine tensorVjp_addAt (firstEntries_injective hp) x (fun t _ => (shape_promptAdd _ x).trans hx)
    (fun t ht j => ?_) (fun t ht k hk => ?_) (entries_slice hg hp).1 (entries_slice hg hp).2
  · rw [entries_promptAdd hx ht]
    exact if_pos j.2.1.isLt
  · rw [entries_promptAdd hx ht]
    exact if_neg fun hlt => hk (mem_range_firstEntries hp hlt)

end TensorVjp

/-! ## The span -/

section Span

variable {b n p h : Nat}

/-- **The gradient to the hidden states.** -/
theorem tensorVjp_chain : ∀ {blocks : List (DiffBlock ℝ)} {prompts : List (Option (Tensor ℝ))}
    {x g : Tensor ℝ}, (∀ block ∈ blocks, block.PullsBack b n h) →
    (∀ prompt ∈ prompts, PromptFits [b, n, h] prompt) → x.shape = [b, n, h] → g.shape = [b, n, h] →
    TensorVjp b n n h (Layer.chain (promptLayers blocks prompts)) x g
      (Layer.chainPull (promptLayers blocks prompts) x g).1
  | [], _, x, g, _, _, _, hg =>
    have hsame : TensorVjp b n n h (promptAdd none) x g g := tensorVjp_promptAdd trivial hg
    hsame
  | _ :: _, [], x, g, _, _, _, hg =>
    have hsame : TensorVjp b n n h (promptAdd none) x g g := tensorVjp_promptAdd trivial hg
    hsame
  | block :: blocks, prompt :: prompts, x, g, hblocks, hfits, hx, hg => by
    have hadd : (promptAdd prompt x).shape = [b, n, h] := (shape_promptAdd prompt x).trans hx
    have hout : (block.forward (promptAdd prompt x)).shape = [b, n, h] :=
      (block.shape_forward _).trans hadd
    have hlater := tensorVjp_chain (fun block hblock => hblocks block (List.mem_cons_of_mem _ hblock))
      (fun prompt hprompt => hfits prompt (List.mem_cons_of_mem _ hprompt)) hout hg
    have hblock := hblocks block List.mem_cons_self _ _ hadd hlater.shape_vjp
    have hprompt := tensorVjp_promptAdd (x := x) (hfits prompt List.mem_cons_self)
      hblock.shape_vjp
    exact (hlater.comp hblock hadd).comp hprompt hx

/-- One prompt per block, for the rows of the hidden states and their first positions. -/
structure PromptPerBlock (numBackends b n p h : Nat) (prompts : List (Tensor ℝ)) : Prop where
  length_eq : prompts.length = numBackends
  le : p ≤ n
  shape : ∀ q ∈ prompts, q.shape = [b, p, h]

theorem PromptPerBlock.fits {numBackends : Nat} {prompts : List (Tensor ℝ)}
    (hprompts : PromptPerBlock numBackends b n p h prompts) (hsize : b * (p * h) ≠ 0) :
    ∀ prompt ∈ prompts.map some, PromptFits [b, n, h] prompt := by
  intro prompt hprompt
  obtain ⟨q, hq, rfl⟩ := List.mem_map.mp hprompt
  have hshape := hprompts.shape q hq
  refine ⟨decide_eq_false ?_, b, n, h, p, rfl, hshape, hprompts.le⟩
  rw [Tensor.numel, hshape]
  simpa using hsize

/-- **The gradients to the prompts**, block by block. -/
theorem tensorVjp_chain_prompt : ∀ {blocks : List (DiffBlock ℝ)} {prompts : List (Tensor ℝ)}
    {x g : Tensor ℝ}, (∀ block ∈ blocks, block.PullsBack b n h) →
    PromptPerBlock blocks.length b n p h prompts → b * (p * h) ≠ 0 → x.shape = [b, n, h] →
    g.shape = [b, n, h] →
    (Layer.chainPull (promptLayers blocks (prompts.map some)) x g).2.length = prompts.length ∧
    ∀ i q y, prompts[i]? = some q →
      (Layer.chainPull (promptLayers blocks (prompts.map some)) x g).2[i]? = some y →
      TensorVjp b p n h
        (fun q => Layer.chain (promptLayers blocks ((prompts.set i q).map some)) x) q g y
  | [], [], _, _, _, _, _, _, _ => ⟨rfl, fun _ _ _ hq => nomatch hq⟩
  | [], _ :: _, _, _, _, hprompts, _, _, _ => nomatch hprompts.length_eq
  | _ :: _, [], _, _, _, hprompts, _, _, _ => nomatch hprompts.length_eq
  | block :: blocks, prompt :: prompts, x, g, hblocks, hprompts, hsize, hx, hg => by
    have hrest : PromptPerBlock blocks.length b n p h prompts :=
      ⟨Nat.succ.inj hprompts.length_eq, hprompts.le,
        fun q hq => hprompts.shape q (List.mem_cons_of_mem _ hq)⟩
    have hprompt : prompt.shape = [b, p, h] := hprompts.shape prompt List.mem_cons_self
    have hblocks' : ∀ block ∈ blocks, block.PullsBack b n h :=
      fun block hblock => hblocks block (List.mem_cons_of_mem _ hblock)
    have hadd : (promptAdd (some prompt) x).shape = [b, n, h] := (shape_promptAdd _ x).trans hx
    have hout : (block.forward (promptAdd (some prompt) x)).shape = [b, n, h] :=
      (block.shape_forward _).trans hadd
    have hlater := tensorVjp_chain hblocks' (hrest.fits hsize) hout hg
    have hblock := hblocks block List.mem_cons_self _ _ hadd hlater.shape_vjp
    obtain ⟨hcount, hgrads⟩ := tensorVjp_chain_prompt hblocks' hrest hsize hout hg
    have hstop : prompt.shape.getD 1 0 = p := by
      rw [hprompt]
      rfl
    refine ⟨congrArg (· + 1) hcount, fun i q y hq hy => ?_⟩
    cases i with
    | zero =>
      -- the prompt of this block: the blocks behind it stay as they are
      obtain rfl : prompt = q := Option.some.inj hq
      obtain rfl := Option.some.inj hy
      rw [hstop]
      exact TensorVjp.comp (F := fun q => promptAdd (some q) x) (hlater.comp hblock hadd)
        (tensorVjp_prompt hprompts.le hx hblock.shape_vjp prompt) hprompt
    | succ i => exact hgrads i q y hq hy

end Span

/-! ## The request -/

section Request

variable {blocks : List (DiffBlock ℝ)} {prompts : List (Tensor ℝ)} {x g : Tensor ℝ} {b n p h : Nat}

theorem PromptPerBlock.not_isDummy {numBackends : Nat} {q : Tensor ℝ}
    (hprompts : PromptPerBlock numBackends b n p h prompts) (hsize : b * (p * h) ≠ 0)
    (hq : q ∈ prompts) : isDummy q = false :=
  (hprompts.fits hsize _ (List.mem_map_of_mem hq)).1

/-- Prompts with elements are given to the blocks one by one. -/
theorem PromptPerBlock.splitPrompts_eq {numBackends : Nat} (hne : prompts ≠ [])
    (hprompts : PromptPerBlock numBackends b n p h prompts) (hsize : b * (p * h) ≠ 0) :
    splitPrompts numBackends prompts = prompts.map some := by
  rw [splitPrompts, if_neg]
  · refine List.map_congr_left fun q hq => ?_
    rw [hprompts.not_isDummy hsize hq]
    rfl
  · intro hall
    obtain ⟨q, hq⟩ := List.exists_mem_of_ne_nil _ hne
    have hdummy := List.all_eq_true.mp hall q hq
    rw [hprompts.not_isDummy hsize hq] at hdummy
    nomatch hdummy

/-- A prompt may be replaced by one of its shape. -/
theorem PromptPerBlock.set {numBackends i : Nat} {q : Tensor ℝ}
    (hprompts : PromptPerBlock numBackends b n p h prompts) (hq : q.shape = [b, p, h]) :
    PromptPerBlock numBackends b n p h (prompts.set i q) where
  length_eq := (List.length_set ..).trans hprompts.length_eq
  le := hprompts.le
  shape q' hq' := by
    rcases List.mem_or_eq_of_mem_set hq' with hmem | rfl
    · exact hprompts.shape q' hmem
    · exact hq

/-- Without prompts there are no gradients to them. -/
theorem chainPull_replicate_none (blocks : List (DiffBlock ℝ)) (m : Nat) (x g : Tensor ℝ) :
    (Layer.chainPull (promptLayers blocks (List.replicate m none)) x g).2 = [] := by
  induction blocks generalizing m x g with
  | nil => rfl
  | cons block blocks ih =>
    cases m with
    | zero => rfl
    | succ m => exact ih m _ g

/-- The forward request answers all hidden states of the shape that its prompts fit. -/
theorem runRpcForward_of_fits {ps : List (Option (Tensor ℝ))} {t : Tensor ℝ} (hblocks : blocks ≠ [])
    (hsplit : splitPrompts blocks.length prompts = ps)
    (hfits : ∀ prompt ∈ ps, PromptFits [b, n, h] prompt) (ht : t.shape = [b, n, h]) :
    runRpcForward blocks t prompts = .ok (Layer.chain (promptLayers blocks ps) t) := by
  rw [← hsplit] at hfits ⊢
  exact runRpcForward_eq hblocks (congrArg List.length ht) (ht ▸ hfits)

/-- **The backward request is the vector-Jacobian product of the forward request**, to the hidden
    states and, if there are prompts, to every prompt. -/
theorem runRpcBackward_vjp (hblocks : blocks ≠ [])
    (hvjp : ∀ block ∈ blocks, block.PullsBack b n h) (hx : x.shape = [b, n, h])
    (hg : g.shape = [b, n, h])
    (hprompts : prompts.all isDummy = true ∨ PromptPerBlock blocks.length b n p h prompts) :
    ∃ gradInputs gradPrompts, runRpcBackward blocks x g prompts = .ok (gradInputs, gradPrompts) ∧
      RequestVjp b n n h (fun x => runRpcForward blocks x prompts) x g gradInputs ∧
      (gradPrompts = none ↔ prompts.all isDummy = true) ∧
      ∀ grads, gradPrompts = some grads → grads.length = blocks.length ∧
        ∀ i q y, prompts[i]? = some q → grads[i]? = some y →
          RequestVjp b p n h (fun q => runRpcForward blocks x (prompts.set i q)) q g y := by
  have hndim : x.shape.length = 3 := congrArg List.length hx
  by_cases hall : prompts.all isDummy = true
  · have hsplit : splitPrompts blocks.length prompts = List.replicate blocks.length none :=
      if_pos hall
    have hfits : ∀ prompt ∈ List.replicate blocks.length (none : Option (Tensor ℝ)),
        PromptFits [b, n, h] prompt := fun prompt hprompt =>
      (List.eq_of_mem_replicate hprompt) ▸ trivial
    have hback := runRpcBackward_eq hblocks hndim hsplit List.length_replicate (hx ▸ hfits) g
    rw [if_pos (chainPull_replicate_none _ _ _ _)] at hback
    refine ⟨_, _, hback, ⟨_, fun t ht => ?_, tensorVjp_chain hvjp hfits hx hg⟩,
      iff_of_true rfl hall, fun _ h => by cases h⟩
    exact runRpcForward_of_fits hblocks hsplit hfits ht
  · have hprompts := hprompts.resolve_left hall
    have hne : prompts ≠ [] := fun hnil => hall (hnil ▸ rfl)
    have hsize : b * (p * h) ≠ 0 := by
      intro hzero
      refine hall (List.all_eq_true.mpr fun q hq => decide_eq_true ?_)
      rw [Tensor.numel, hprompts.shape q hq]
      simpa using hzero
    have hsplit := hprompts.splitPrompts_eq hne hsize
    have hfits := hprompts.fits hsize
    have hback := runRpcBackward_eq hblocks hndim hsplit
      ((List.length_map _).trans hprompts.length_eq) (hx ▸ hfits) g
    obtain ⟨hcount, hgrads⟩ := tensorVjp_chain_prompt hvjp hprompts hsize hx hg
    rw [if_neg fun hnil => hne (List.length_eq_zero_iff.mp (by rw [← hcount, hnil]; rfl))] at hback
    refine ⟨_, _, hback, ⟨_, fun t ht => ?_, tensorVjp_chain hvjp hfits hx hg⟩,
      iff_of_false (fun h => by cases h) hall, ?_⟩
    · exact runRpcForward_of_fits hblocks hsplit hfits ht
    · rintro grads ⟨⟩
      refine ⟨hcount.trans hprompts.length_eq, fun i q y hq hy => ?_⟩
      refine ⟨_, fun t ht => ?_, hgrads i q y hq hy⟩
      -- the other prompts stay, so the request is answered for every prompt of this shape
      have hset : PromptPerBlock blocks.length b n p h (prompts.set i t) := hprompts.set ht
      have hsplit' := hset.splitPrompts_eq (by simpa using hne) hsize
      exact runRpcForward_of_fits hblocks hsplit' (hset.fits hsize) hx

end Request

/-! ## Blocks that square -/

/-- Every entry is squared. -/
def squareBlock : DiffBlock ℝ where
  forward x := Tensor.ofFn x.shape fun ix => x.get ix * x.get ix
  backward x g := Tensor.ofFn x.shape fun ix => g.get ix * (x.get ix + x.get ix)
  shape_forward _ := rfl
  shape_backward _ _ := rfl

theorem squareBlock_pullsBack (b n h : Nat) : squareBlock.PullsBack b n h := by
  intro x g hx hg
  have hforward : ∀ v : Entry b n h → ℝ,
      entries b n h (squareBlock.forward (ofEntries v)) = fun i => v i * v i := by
    intro v
    funext i
    refine (Tensor.get_ofFn _ (inBounds_entry i)).trans ?_
    exact congrArg (fun r => r * r) (congrFun (entries_ofEntries v) i)
  have hbackward : entries b n h (squareBlock.backward x g)
      = fun i => entries b n h g i * (entries b n h x i + entries b n h x i) := by
    funext i
    exact Tensor.get_ofFn _ (hx ▸ inBounds_entry i)
  have hsquare : ∀ r : ℝ, HasDerivAt (fun r => r * r) (r + r) r := by
    intro r
    have hmul : HasDerivAt (fun r : ℝ => r * r) (1 * r + r * 1) r :=
      (hasDerivAt_id r).mul (hasDerivAt_id r)
    rwa [one_mul, mul_one] at hmul
  refine ⟨fun t ht => ht, hx, ?_⟩
  simp only [hforward, hbackward]
  exact hasVjpAt_pointwise hsquare _ _

/-- A tensor of ones. -/
def ones (b n h : Nat) : Tensor ℝ := Tensor.ofFn [b, n, h] fun _ => 1

/-- Two blocks, each with a prompt for the first of two positions. -/
theorem runRpcBackward_vjp_square :
    ∃ gradInputs gradPrompts,
      runRpcBackward [squareBlock, squareBlock] (ones 1 2 1) (ones 1 2 1) [ones 1 1 1, ones 1 1 1]
        = .ok (gradInputs, gradPrompts) ∧
      RequestVjp 1 2 2 1
        (fun x => runRpcForward [squareBlock, squareBlock] x [ones 1 1 1, ones 1 1 1])
        (ones 1 2 1) (ones 1 2 1) gradInputs ∧ gradPrompts ≠ none := by
  have hvjp : ∀ block ∈ [squareBlock, squareBlock], block.PullsBack 1 2 1 := by
    intro block hblock
    obtain rfl : block = squareBlock := by simpa using hblock
    exact squareBlock_pullsBack 1 2 1
  have hprompts : PromptPerBlock 2 1 2 1 1 [ones 1 1 1, ones 1 1 1] := by
    refine ⟨rfl, by omega, fun q hq => ?_⟩
    obtain rfl : q = ones 1 1 1 := by simpa using hq
    rfl
  obtain ⟨gradInputs, gradPrompts, hback, hinputs, hnone, -⟩ :=
    runRpcBackward_vjp (List.cons_ne_nil _ _) hvjp (x := ones 1 2 1) (g := ones 1 2 1) rfl rfl
      (.inr hprompts)
  refine ⟨gradInputs, gradPrompts, hback, hinputs, fun h => ?_⟩
  have hdummy : [ones 1 1 1, ones 1 1 1].all isDummy = false := rfl
  exact absurd (hnone.mp h) (by rw [hdummy]; exact Bool.false_ne_true)

end Drift
