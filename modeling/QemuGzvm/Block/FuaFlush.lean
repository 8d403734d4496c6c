import QemuGzvm.Block.FuaNodes

/-!
Contract: a flush that returns 0, anywhere in the graph.

Owns:
- no request returns more than 0;
- after a flush that returns 0 no medium below the node is written to and unflushed;
- both for `blockOp`, by induction on the node, with what a request keeps.

A driver may write in `bdrv_co_flush_to_os`, so a flush of one child can write to media that an
earlier child was flushed for. These are then below the later child too.
-/

namespace QemuGzvm.Block

variable {graph : BlockGraph} {drivers : BlockDrivers} {most : Nat → Nat} {bs : Nat}
  {below : Fin bs → NodeOp → BlockWorld → Int × BlockWorld} {edges : List (BlockEdge bs)}
  {ret : Int}

theorem refused_lt {node : BlockNode bs} {request : WriteRequest}
    (isRefused : refused node request = some ret) : ret < 0 := by
  unfold refused at isRefused
  split_ifs at isRefused <;> cases isRefused <;> decide

/-! ### Flushes of children -/

/-- No medium below the node is written to and unflushed. -/
def CleanUnder (graph : BlockGraph) (bs : Nat) (world : BlockWorld) : Prop :=
  ∀ medium, IsMedium graph medium → Under graph medium bs → dirty medium world.events = false

def AllTidy (graph : BlockGraph) (most : Nat → Nat) (world : BlockWorld) : Prop :=
  ∀ medium, IsMedium graph medium → Tidy most world medium

def FewIn (most : Nat → Nat) (world : BlockWorld) : Prop :=
  ∀ medium, world.finishes medium ≤ most medium

/-- A flush that returns 0 in this world leaves no medium below unflushed. -/
def Cleans (graph : BlockGraph) (most : Nat → Nat) (bs : Nat)
    (flush : BlockWorld → Int × BlockWorld) : Prop :=
  ∀ world, (flush world).1 = 0 → FewIn most (flush world).2 → AllTidy graph most world →
    CleanUnder graph bs (flush world).2

theorem flushChildren_failed (failed : ret ≠ 0) (edges : List (BlockEdge bs))
    (world : BlockWorld) : (flushChildren below edges ret world).1 ≠ 0 := by
  induction edges generalizing world with
  | nil => exact failed
  | cons edge rest ih =>
    grind [flushChildren]

theorem flushChildren_frame (sound : SoundBelow graph drivers most below) {medium : Nat}
    (outside : ∀ edge ∈ edges, edge.writable = true → ¬Under graph medium edge.child)
    (ret : Int) (world : BlockWorld) :
    dirty medium (flushChildren below edges ret world).2.events = dirty medium world.events := by
  induction edges generalizing ret world with
  | nil => rfl
  | cons edge rest ih =>
    have others := ih fun other member =>
      outside other (List.mem_cons_of_mem _ member)
    rw [flushChildren]
    split
    · next writable =>
      rw [others]
      exact (sound.fits edge.child .flush world).frame medium
        (outside edge List.mem_cons_self writable)
    · exact others ret world

/-- If the loop returns 0, the media below each child it flushes are clean at its end. -/
theorem flushChildren_cleans (sound : SoundBelow graph drivers most below)
    (cleans : ∀ child : Fin bs, Cleans graph most child (below child .flush))
    (subset : edges ⊆ (graph bs).children) {world : BlockWorld}
    (zero : (flushChildren below edges 0 world).1 = 0)
    (few : FewIn most (flushChildren below edges 0 world).2) (tidy : AllTidy graph most world) :
    ∀ edge ∈ edges, edge.writable = true →
      CleanUnder graph edge.child (flushChildren below edges 0 world).2 := by
  induction edges generalizing world with
  | nil => exact nofun
  | cons first rest ih =>
    have subset' := (List.cons_subset.mp subset).2
    by_cases writable : first.writable = true
    · simp only [flushChildren, if_pos writable, if_true] at zero few ⊢
      have flushed : (below first.child .flush world).1 = 0 := by
        by_contra failed
        exact flushChildren_failed failed rest _ zero
      rw [flushed] at zero few ⊢
      have fewFirst : FewIn most (below first.child .flush world).2 := fun medium =>
        Nat.le_trans ((flushChildren_works sound subset' (Int.le_refl 0) _).during.finishes
          medium) (few medium)
      have across := sound.fits first.child .flush world
      have tidyFirst : AllTidy graph most (below first.child .flush world).2 :=
        fun medium isMedium => across.keeps fewFirst medium isMedium (tidy medium isMedium)
      have others := ih subset' zero few tidyFirst
      intro edge member isWritable
      rcases List.mem_cons.mp member with rfl | later
      · intro medium isMedium under
        by_cases again : ∃ other ∈ rest, other.writable = true ∧ Under graph medium other.child
        · obtain ⟨other, isOther, otherWritable, otherUnder⟩ := again
          exact others other isOther otherWritable medium isMedium otherUnder
        · rw [flushChildren_frame sound fun other isOther otherWritable otherUnder =>
            again ⟨other, isOther, otherWritable, otherUnder⟩]
          exact cleans edge.child world flushed fewFirst tidy medium isMedium under
      · exact others edge later isWritable
    · grind [flushChildren]

/-! ### A flush of a node -/

theorem Under.children {medium : Nat} (under : Under graph medium bs)
    (isMedium : IsMedium graph medium) (inner : ¬IsMedium graph bs) :
    ∃ edge ∈ (graph bs).children, edge.writable = true ∧ Under graph medium edge.child := by
  cases under with
  | self => exact absurd isMedium inner
  | child member writable under => exact ⟨_, member, writable, under⟩

theorem Under.medium {medium : Nat} (under : Under graph medium bs)
    (isMedium : IsMedium graph bs) : medium = bs := by
  cases under with
  | self => rfl
  | child member _ _ =>
    rw [isMedium] at member
    cases member

theorem bdrvCoFlush_cleans_inner (sound : SoundBelow graph drivers most below)
    (cleans : ∀ child : Fin bs, Cleans graph most child (below child .flush))
    (flushable : Flushable (graph bs)) (inner : ¬IsMedium graph bs) :
    Cleans graph most bs (bdrvCoFlush (graph bs) drivers below) := by
  intro world zero few tidy
  rw [bdrvCoFlush_eq flushable] at zero few ⊢
  have bodyZero : (flushBody (graph bs) drivers below (world.writeGen bs) world).1 = 0 := by
    by_contra failed
    rw [if_neg failed] at zero
    exact failed zero
  rw [if_pos bodyZero] at few ⊢
  obtain ⟨middle, isMiddle⟩ : ∃ middle, middle = (flushMedium (graph bs) drivers below
    (world.writeGen bs) (flushOs (graph bs) drivers below world).2).2 := ⟨_, rfl⟩
  have isBody : flushBody (graph bs) drivers below (world.writeGen bs) world =
      flushChildren below (graph bs).children 0 middle := by
    grind [Flushable, flushBody]
  rw [isBody] at bodyZero
  rw [isBody] at few ⊢
  have fewBody : FewIn most (flushChildren below (graph bs).children 0 middle).2 := few
  have during : During graph most bs world middle := by
    rw [isMiddle]
    exact ((flushOs_works sound world).next
      (flushMedium_works sound _ _)).during
  have tidyMiddle : AllTidy graph most middle := by
    intro medium isMedium
    apply during.keeps _ medium isMedium _ (tidy medium isMedium)
    · exact fun other => Nat.le_trans ((flushChildren_works sound (List.Subset.refl _)
        (Int.le_refl 0) _).during.finishes other) (fewBody other)
    · rintro rfl
      exact inner isMedium
  intro medium isMedium under
  obtain ⟨edge, member, writable, underChild⟩ := under.children isMedium inner
  exact flushChildren_cleans sound cleans (List.Subset.refl _) bodyZero fewBody tidyMiddle edge
    member writable medium isMedium underChild

theorem bdrvCoFlush_cleans_medium (along : Along graph drivers) (isMedium : IsMedium graph bs)
    (flushable : Flushable (graph bs)) :
    Cleans graph most bs (bdrvCoFlush (graph bs) drivers below) := by
  intro world zero _ tidy medium _ under
  obtain rfl := under.medium isMedium
  have shows := (tidy medium isMedium).shows
  rcases bdrvCoFlush_medium along isMedium flushable world with
    ⟨ret, failed, isFlush⟩ | ⟨same, isFlush⟩ | ⟨different, ⟨ret, failed, isFlush⟩ | isFlush⟩
  · rw [isFlush] at zero
    exact absurd zero (Int.ne_of_lt failed)
  · rw [isFlush]
    apply eq_false_of_ne_true
    intro isDirty
    exact shows isDirty (pending_eq_zero_iff.mpr same)
  · rw [isFlush] at zero
    exact absurd zero (Int.ne_of_lt failed)
  · rw [isFlush]
    exact if_pos rfl

theorem bdrvCoFlush_cleans (sound : SoundBelow graph drivers most below)
    (cleans : ∀ child : Fin bs, Cleans graph most child (below child .flush))
    (flushable : Flushable (graph bs)) :
    Cleans graph most bs (bdrvCoFlush (graph bs) drivers below) := by
  by_cases isMedium : IsMedium graph bs
  · exact bdrvCoFlush_cleans_medium sound.along isMedium flushable
  · exact bdrvCoFlush_cleans_inner sound cleans flushable isMedium

/-! ### The graph -/

structure OpFits (graph : BlockGraph) (most : Nat → Nat) (bs : Nat)
    (run : NodeOp → BlockWorld → Int × BlockWorld) : Prop where
  ret_le : ∀ op world, (run op world).1 ≤ 0
  across : ∀ op world, Across graph most bs world (run op world).2
  cleans : Cleans graph most bs (run .flush)

theorem runOp_fits (along : Along graph drivers) (flushable : Flushable (graph bs))
    (children : ∀ child : Fin bs, OpFits graph most child (below child)) :
    OpFits graph most bs (runOp (graph bs) drivers below) := by
  have sound : SoundBelow graph drivers most below :=
    ⟨along, fun child => (children child).across, fun child => (children child).ret_le⟩
  have both : ∀ op world, (runOp (graph bs) drivers below op world).1 ≤ 0 ∧
      Across graph most bs world (runOp (graph bs) drivers below op world).2 := by
    intro op world
    cases op with
    | flush =>
      exact ⟨(bdrvCoFlush_works sound world).ret_le,
        bdrvCoFlush_across sound flushable world⟩
    | write request =>
      simp only [runOp, bdrvCoPwritevPart]
      split
      · next isRefused => exact ⟨Int.le_of_lt (refused_lt isRefused), .refl world⟩
      · exact writeParts_across sound _ _ _ world
  exact ⟨fun op world => (both op world).1, fun op world => (both op world).2,
    bdrvCoFlush_cleans sound (fun child => (children child).cleans) flushable⟩

/-- The induction is on the node: its children have smaller numbers. -/
theorem blockOp_fits (along : Along graph drivers) (flushable : ∀ bs, Flushable (graph bs))
    (most : Nat → Nat) (bs : Nat) : OpFits graph most bs (blockOp graph drivers bs) := by
  induction bs using Nat.strongRecOn with
  | ind bs ih =>
    have run : blockOp graph drivers bs = runOp (graph bs) drivers
        (fun child op world => blockOp graph drivers child op world) := by
      funext op world
      rw [blockOp]
    rw [run]
    exact runOp_fits along (flushable bs) fun child => ih child child.isLt

end QemuGzvm.Block
