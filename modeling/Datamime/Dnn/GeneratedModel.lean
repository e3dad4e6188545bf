/-
# The generated model

`GeneratedModel` builds its layers from an order of hidden blocks and tracks by hand how many
channels its feature maps have and how large they are. This module gives every layer the
meaning that its documentation gives it, as a partial function on feature maps. Along every
order with at most six blocks that halve the feature map, the tracked numbers are those of the
true feature map, and the model can be applied.
-/

import Datamime.Dnn.LayerOrder

namespace Datamime.Dnn

/-! ## Layers -/

/-- A feature map of one image. -/
structure FeatureMap where
  channels : ℤ
  height : ℤ
  width : ℤ
  deriving DecidableEq

/-- The layers of `nn` that the model consists of. -/
inductive Layer
  | conv2d (inChannels outChannels kernelSize stride padding : ℤ)
  | maxPool2d (kernelSize stride padding : ℤ)
  | relu
  deriving DecidableEq

/-- The layers after the flattening. -/
inductive LastLayer
  | linear (inFeatures outFeatures : ℤ)
  | relu
  | softmax
  deriving DecidableEq

/-- The documented size of the output of a convolution or pooling without dilation. -/
def outputSize (size kernelSize stride padding : ℤ) : ℤ :=
  (size + 2 * padding - 1 * (kernelSize - 1) - 1) / stride + 1

/-- A window that is applied to both dimensions. An empty output is refused. -/
def slide (map : FeatureMap) (outChannels kernelSize stride padding : ℤ) : Option FeatureMap :=
  let height := outputSize map.height kernelSize stride padding
  let width := outputSize map.width kernelSize stride padding
  if 0 < height ∧ 0 < width then some ⟨outChannels, height, width⟩ else none

/-- The output of a layer. A convolution refuses other channels than its own. -/
def Layer.forward (map : FeatureMap) : Layer → Option FeatureMap
  | conv2d inChannels outChannels kernelSize stride padding =>
      if map.channels = inChannels then slide map outChannels kernelSize stride padding else none
  | maxPool2d kernelSize stride padding => slide map map.channels kernelSize stride padding
  | relu => some map

/-- The number of outputs of a layer, for a number of inputs. -/
def LastLayer.forward (features : ℤ) : LastLayer → Option ℤ
  | linear inFeatures outFeatures => if features = inFeatures then some outFeatures else none
  | relu => some features
  | softmax => some features

/-! ## The construction -/

/-- The variables of the loop over the layer order. -/
structure Tracked where
  layers : List Layer
  cOut : ℤ
  hIn : ℤ
  wIn : ℤ

/-- The state before the loop. -/
def Tracked.first (cOutInit : ℤ) : Tracked where
  layers := [.conv2d 3 cOutInit 3 1 1, .relu]
  cOut := cOutInit
  hIn := 224
  wIn := 224

/-- One round of the loop over the layer order. -/
def Tracked.add (st : Tracked) : Block → Tracked
  | .c => { st with layers := st.layers ++ [.conv2d st.cOut st.cOut 3 1 1, .relu] }
  | .t => { st with
      layers := st.layers ++ [.conv2d st.cOut st.cOut 3 2 1, .relu]
      hIn := (st.hIn - 3 + 2 * 1) / 2 + 1
      wIn := (st.wIn - 3 + 2 * 1) / 2 + 1 }
  | .p => {
      layers := st.layers ++
        [.maxPool2d 2 2 0, .conv2d st.cOut (st.cOut * 2) 3 1 1, .relu]
      cOut := st.cOut * 2
      hIn := st.hIn / 2
      wIn := st.wIn / 2 }

/-- The state after some rounds of the loop. -/
def Tracked.after (cOutInit : ℤ) (order : List Block) : Tracked :=
  order.foldl Tracked.add (Tracked.first cOutInit)

/-- The rounds of the loop over the linear layers, from one on. -/
def lastLayersFrom (fcLayers i : ℕ) (inFeatures : ℤ) : ℕ → List LastLayer
  | 0 => []
  | left + 1 =>
      if i + 1 < fcLayers then
        .linear inFeatures 2048 :: .relu :: lastLayersFrom fcLayers (i + 1) 2048 left
      else .linear inFeatures 1000 :: .softmax :: lastLayersFrom fcLayers (i + 1) inFeatures left

structure GeneratedModel where
  layers : List Layer
  fcInitInFeatures : ℤ
  lastLayers : List LastLayer

/-- `GeneratedModel.__init__`, from the layer order on. -/
def GeneratedModel.ofOrder (order : List Block) (fcLayers : ℕ) (cOutInit : ℤ) : GeneratedModel :=
  let st := Tracked.after cOutInit order
  let inFeatures := st.cOut * st.hIn * st.wIn
  { layers := st.layers
    fcInitInFeatures := inFeatures
    lastLayers := lastLayersFrom fcLayers 0 inFeatures fcLayers }

/-- `GeneratedModel.__init__`. -/
def GeneratedModel.init (shuffle : Shuffle)
    (convLayers stridedConvLayers maxpoolLayers fcLayers : ℕ) (cOutInit : ℤ)
    (evenInterval : Bool) : Except PyError GeneratedModel := do
  let order ← layerOrder shuffle convLayers stridedConvLayers maxpoolLayers evenInterval
  return .ofOrder order fcLayers cOutInit

/-- An image at the input. -/
def input : FeatureMap := ⟨3, 224, 224⟩

/-- The feature map after some layers. -/
def mapAfter (layers : List Layer) : Option FeatureMap := layers.foldlM Layer.forward input

/-- `GeneratedModel.forward`. Each image becomes one row of the flattened maps. -/
def GeneratedModel.forward (model : GeneratedModel) : Option ℤ := do
  let last ← mapAfter model.layers
  if last.channels * last.height * last.width = model.fcInitInFeatures then
    model.lastLayers.foldlM LastLayer.forward model.fcInitInFeatures
  else none

/-- Every layer accepts the output of the layer before it, no feature map is empty, and the
tracked numbers are the true ones after every block. -/
structure WellFormed (order : List Block) (fcLayers : ℕ) (cOutInit : ℤ) : Prop where
  accepts : ∀ layers, layers <+: (GeneratedModel.ofOrder order fcLayers cOutInit).layers →
    ∃ map, mapAfter layers = some map ∧ 0 < map.height ∧ 0 < map.width
  tracks : ∀ early, early <+: order → ∀ st, st = Tracked.after cOutInit early →
    mapAfter st.layers = some ⟨st.cOut, st.hIn, st.wIn⟩
  flattens : ∃ last, mapAfter (GeneratedModel.ofOrder order fcLayers cOutInit).layers = some last ∧
    (GeneratedModel.ofOrder order fcLayers cOutInit).fcInitInFeatures =
      last.channels * last.height * last.width
  returns : (GeneratedModel.ofOrder order fcLayers cOutInit).forward = some 1000

/-! ## Layers that follow each other -/

theorem mapAfter_append (first second : List Layer) :
    mapAfter (first ++ second) =
      (mapAfter first).bind fun map => second.foldlM Layer.forward map := by
  simp [mapAfter, List.foldlM_append]

/-- The output of a window is not empty. -/
theorem slide_pos {map next : FeatureMap} {outChannels kernelSize stride padding : ℤ}
    (slid : slide map outChannels kernelSize stride padding = some next) :
    0 < next.height ∧ 0 < next.width := by
  simp only [slide] at slid
  split_ifs at slid with notEmpty
  cases slid
  exact notEmpty

/-- A layer leads from a feature map that is not empty to another one. -/
theorem forward_pos {map next : FeatureMap} {layer : Layer}
    (pos : 0 < map.height ∧ 0 < map.width) (applied : layer.forward map = some next) :
    0 < next.height ∧ 0 < next.width := by
  cases layer with
  | conv2d inChannels outChannels kernelSize stride padding =>
      simp only [Layer.forward] at applied
      split_ifs at applied
      exact slide_pos applied
  | maxPool2d kernelSize stride padding => exact slide_pos applied
  | relu =>
      cases applied
      exact pos

theorem mapAfter_pos {layers : List Layer} {map : FeatureMap} (isMap : mapAfter layers = some map) :
    0 < map.height ∧ 0 < map.width := by
  induction layers using List.reverseRecOn generalizing map with
  | nil =>
      cases isMap
      decide
  | append_singleton layers layer ih =>
      rw [mapAfter_append, Option.bind_eq_some_iff] at isMap
      rcases isMap with ⟨before, isBefore, applied⟩
      apply forward_pos (ih isBefore)
      simpa using applied

/-- If all layers can be applied, the first ones can. -/
theorem exists_mapAfter_of_prefix {layers all : List Layer} {last : FeatureMap}
    (isPrefix : layers <+: all) (isLast : mapAfter all = some last) :
    ∃ map, mapAfter layers = some map ∧ 0 < map.height ∧ 0 < map.width := by
  rcases isPrefix with ⟨rest, rfl⟩
  rw [mapAfter_append, Option.bind_eq_some_iff] at isLast
  rcases isLast with ⟨map, isMap, -⟩
  exact ⟨map, isMap, mapAfter_pos isMap⟩

/-! ## Tracked sizes -/

/-- A window of three with a border of one keeps the size. -/
@[simp]
theorem outputSize_keep (size : ℤ) : outputSize size 3 1 1 = size := by
  simp [outputSize]

/-- A strided convolution halves the size and rounds up, in the words of the script. -/
@[simp]
theorem outputSize_strided (size : ℤ) :
    outputSize size 3 2 1 = (size - 3 + 2 * 1) / 2 + 1 := by
  simp only [outputSize]
  omega

/-- Pooling halves the size and rounds down. -/
@[simp]
theorem outputSize_pool (size : ℤ) : outputSize size 2 2 0 = size / 2 := by
  simp only [outputSize]
  omega

/-- The number of blocks that halve the feature map. -/
def halvings (order : List Block) : ℕ := order.count .t + order.count .p

/-- The tracked numbers are those of the true feature map, and each of the blocks so far has
at most halved it. -/
structure Tracked.Follows (st : Tracked) (blocks : ℕ) : Prop where
  isMap : mapAfter st.layers = some ⟨st.cOut, st.hIn, st.wIn⟩
  height : 224 / 2 ^ blocks ≤ st.hIn
  width : 224 / 2 ^ blocks ≤ st.wIn

theorem follows_first (cOutInit : ℤ) : (Tracked.first cOutInit).Follows 0 where
  isMap := by simp [mapAfter, Tracked.first, Layer.forward, input, slide]
  height := by simp [Tracked.first]
  width := by simp [Tracked.first]

/-- A convolution with the channels of the feature map, then `ReLU`. -/
theorem mapAfter_conv {layers : List Layer} {map : FeatureMap} (isMap : mapAfter layers = some map)
    {outChannels stride : ℤ} (height : 0 < outputSize map.height 3 stride 1)
    (width : 0 < outputSize map.width 3 stride 1) :
    mapAfter (layers ++ [.conv2d map.channels outChannels 3 stride 1, .relu]) =
      some ⟨outChannels, outputSize map.height 3 stride 1, outputSize map.width 3 stride 1⟩ := by
  rw [mapAfter_append, isMap]
  simp [Layer.forward, slide, height, width]

theorem div_two_pow_succ_le {size : ℤ} {blocks : ℕ} (atLeast : 224 / 2 ^ blocks ≤ size) :
    224 / 2 ^ (blocks + 1) ≤ size / 2 := by
  rw [pow_succ, ← Int.ediv_ediv_of_nonneg (by positivity)]
  exact Int.ediv_le_ediv (by decide) atLeast

/-- Six halvings leave something of the feature map. -/
theorem pos_of_few {size : ℤ} {blocks : ℕ} (few : blocks ≤ 6) (atLeast : 224 / 2 ^ blocks ≤ size) :
    0 < size := by
  apply lt_of_lt_of_le _ atLeast
  interval_cases blocks <;> decide

section

variable {st : Tracked} {blocks : ℕ}

theorem Tracked.Follows.pos (follows : st.Follows blocks) (few : blocks ≤ 6) :
    0 < st.hIn ∧ 0 < st.wIn :=
  ⟨pos_of_few few follows.height, pos_of_few few follows.width⟩

theorem follows_add_c (follows : st.Follows blocks) (few : blocks ≤ 6) :
    (st.add .c).Follows blocks := by
  rcases follows.pos few with ⟨height, width⟩
  have convolved := @mapAfter_conv _ _ follows.isMap st.cOut 1 (by simpa using height)
    (by simpa using width)
  simp only [outputSize_keep] at convolved
  exact ⟨convolved, follows.height, follows.width⟩

theorem follows_add_t (follows : st.Follows blocks) (few : blocks + 1 ≤ 6) :
    (st.add .t).Follows (blocks + 1) := by
  have roundsUp {size : ℤ} (atLeast : 224 / 2 ^ blocks ≤ size) :
      224 / 2 ^ (blocks + 1) ≤ (size - 3 + 2 * 1) / 2 + 1 := by
    have halved := div_two_pow_succ_le atLeast
    omega
  have height := roundsUp follows.height
  have width := roundsUp follows.width
  have convolved := @mapAfter_conv _ _ follows.isMap st.cOut 2
    (by simpa using pos_of_few few height) (by simpa using pos_of_few few width)
  simp only [outputSize_strided] at convolved
  exact ⟨convolved, height, width⟩

theorem follows_add_p (follows : st.Follows blocks) (few : blocks + 1 ≤ 6) :
    (st.add .p).Follows (blocks + 1) := by
  have height := div_two_pow_succ_le follows.height
  have width := div_two_pow_succ_le follows.width
  have height_pos := pos_of_few few height
  have width_pos := pos_of_few few width
  have pooled : mapAfter (st.layers ++ [.maxPool2d 2 2 0]) =
      some ⟨st.cOut, st.hIn / 2, st.wIn / 2⟩ := by
    rw [mapAfter_append, follows.isMap]
    simp [Layer.forward, slide, height_pos, width_pos]
  have convolved := @mapAfter_conv _ _ pooled (st.cOut * 2) 1 (by simpa using height_pos)
    (by simpa using width_pos)
  simp only [outputSize_keep, List.append_assoc, List.singleton_append] at convolved
  exact ⟨convolved, height, width⟩

/-- One round keeps the tracked numbers true. -/
theorem follows_add (follows : st.Follows blocks) (block : Block)
    (few : blocks + halvings [block] ≤ 6) :
    (st.add block).Follows (blocks + halvings [block]) := by
  cases block with
  | c => exact follows_add_c follows few
  | t => exact follows_add_t follows few
  | p => exact follows_add_p follows few

end

theorem halvings_append (first second : List Block) :
    halvings (first ++ second) = halvings first + halvings second := by
  simp [halvings, List.count_append]
  omega

/-- All rounds together. -/
theorem follows_after (cOutInit : ℤ) {order : List Block} (few : halvings order ≤ 6) :
    (Tracked.after cOutInit order).Follows (halvings order) := by
  induction order using List.reverseRecOn with
  | nil => exact follows_first cOutInit
  | append_singleton order block ih =>
      rw [halvings_append] at few ⊢
      rw [Tracked.after, List.foldl_append, List.foldl_cons, List.foldl_nil]
      exact follows_add (ih ((Nat.le_add_right _ _).trans few)) block few

theorem halvings_prefix_le {early order : List Block} (isPrefix : early <+: order) :
    halvings early ≤ halvings order := by
  rcases isPrefix with ⟨rest, rfl⟩
  rw [halvings_append]
  exact Nat.le_add_right _ _

/-! ## The linear layers -/

/-- The last layers from one on accept the features that they are built for. -/
theorem lastLayersFrom_forward {fcLayers i left : ℕ} (someLeft : 0 < left)
    (total : i + left = fcLayers) (inFeatures : ℤ) :
    (lastLayersFrom fcLayers i inFeatures left).foldlM LastLayer.forward inFeatures =
      some 1000 := by
  induction left generalizing i inFeatures with
  | zero => exact absurd someLeft (lt_irrefl 0)
  | succ left ih =>
      rw [lastLayersFrom]
      cases left with
      | zero =>
          have isLast : ¬ i + 1 < fcLayers := by omega
          simp [isLast, lastLayersFrom, LastLayer.forward]
      | succ left =>
          have goesOn : i + 1 < fcLayers := by omega
          have rest : i + 1 + (left + 1) = fcLayers := by omega
          have later := ih (Nat.succ_pos left) rest 2048
          simpa [goesOn, LastLayer.forward] using later

/-- An order of blocks that halves the feature map at most six times is that of a well-formed
model. -/
theorem wellFormed_of_halvings {order : List Block} (few : halvings order ≤ 6)
    {fcLayers : ℕ} (someLinear : 1 ≤ fcLayers) (cOutInit : ℤ) :
    WellFormed order fcLayers cOutInit := by
  have follows := follows_after cOutInit few
  have flattened := lastLayersFrom_forward someLinear (Nat.zero_add fcLayers)
    ((Tracked.after cOutInit order).cOut * (Tracked.after cOutInit order).hIn *
      (Tracked.after cOutInit order).wIn)
  exact
    { accepts := fun layers isPrefix => exists_mapAfter_of_prefix isPrefix follows.isMap
      tracks := fun early isPrefix st isState => by
        subst isState
        exact (follows_after cOutInit ((halvings_prefix_le isPrefix).trans few)).isMap
      flattens := ⟨_, follows.isMap, rfl⟩
      returns := by
        simp only [GeneratedModel.forward, GeneratedModel.ofOrder]
        rw [follows.isMap]
        simpa using flattened }

/-- With at most six blocks that halve the feature map, the model is well-formed for every order
of its blocks. -/
theorem wellFormed_of_few {order : List Block} (few : order.count .t + order.count .p ≤ 6)
    {fcLayers : ℕ} (someLinear : 1 ≤ fcLayers) (cOutInit : ℤ) :
    WellFormed order fcLayers cOutInit :=
  wellFormed_of_halvings few someLinear cOutInit

/-- Three strided and three pooling blocks, in some order. -/
theorem sixHalvings_wellFormed : WellFormed [.t, .p, .c, .p, .t, .t, .p, .c] 2 3 :=
  wellFormed_of_few (by decide) (by decide) 3

example : mapAfter (GeneratedModel.ofOrder [.t, .p, .c, .p, .t, .t, .p, .c] 2 3).layers =
    some ⟨24, 3, 3⟩ := by decide

/-- Neither arrangement has more halving blocks than were requested. -/
theorem halvings_le_of_layerOrder {shuffle : Shuffle}
    {convLayers stridedConvLayers maxpoolLayers : ℕ} {evenInterval : Bool} {order : List Block}
    (someConv : 1 ≤ convLayers) (someMaxpool : 1 ≤ maxpoolLayers)
    (isOrder : layerOrder shuffle convLayers stridedConvLayers maxpoolLayers evenInterval =
      .ok order) :
    halvings order ≤ stridedConvLayers + maxpoolLayers := by
  cases evenInterval with
  | false =>
      have counts := hasCounts_shuffledOrder shuffle convLayers stridedConvLayers maxpoolLayers
      cases isOrder
      rw [halvings, counts.strided, counts.maxpool]
  | true =>
      rw [layerOrder, if_pos rfl] at isOrder
      rcases Nat.eq_zero_or_pos stridedConvLayers with rfl | someStrided
      · rw [evenOrder_of_no_strided someConv someMaxpool] at isOrder
        cases isOrder
      · rcases hasCounts_evenOrder someConv someStrided someMaxpool with ⟨even, isEven, counts⟩
        cases isOrder.symm.trans isEven
        rw [halvings, counts.strided, counts.maxpool]
        exact Nat.add_le_add (Nat.gcd_le_right _ someStrided) (Nat.gcd_le_right _ someMaxpool)

/-- Every model that the script builds within the constraint of its parameters is well-formed. -/
theorem wellFormed_of_layerOrder {shuffle : Shuffle}
    {convLayers stridedConvLayers maxpoolLayers fcLayers : ℕ} {evenInterval : Bool}
    {order : List Block} (someConv : 1 ≤ convLayers) (someMaxpool : 1 ≤ maxpoolLayers)
    (constraint : stridedConvLayers + maxpoolLayers ≤ 6) (someLinear : 1 ≤ fcLayers)
    (isOrder : layerOrder shuffle convLayers stridedConvLayers maxpoolLayers evenInterval =
      .ok order) (cOutInit : ℤ) :
    WellFormed order fcLayers cOutInit :=
  wellFormed_of_halvings ((halvings_le_of_layerOrder someConv someMaxpool isOrder).trans constraint)
    someLinear cOutInit

end Datamime.Dnn
