import Nicc.Dpa.DeallocateChannel

namespace Nicc.Dpa.Channel
open Lib Step

def Extends (step : Step) : Prop :=
  ∀ m, (step m).1 = some .NICC_SUCCESS → m.live ⊆ (step m).2.live

structure Adds (kind : Kind) (step : Step) : Prop where
  keeps : Extends step
  added : ∀ m, (step m).1 = some .NICC_SUCCESS →
    ∃ h, (kind, h) ∉ m.live ∧ (kind, h) ∈ (step m).2.live

section
variable {first next : Step} {kind : Kind}

theorem Extends.andThen (one : Extends first) (two : Extends next) :
    Extends (first.andThen next) := by
  intro m ok
  obtain ⟨firstOk, nextOk, through⟩ := Step.andThen_success ok
  rw [through]
  exact (one m firstOk).trans (two _ nextOk)

theorem Adds.andThen (one : Adds kind first) (two : Extends next) :
    Adds kind (first.andThen next) := by
  refine ⟨one.keeps.andThen two, fun m ok => ?_⟩
  obtain ⟨firstOk, nextOk, through⟩ := Step.andThen_success ok
  obtain ⟨h, absent, present⟩ := one.added m firstOk
  rw [through]
  exact ⟨h, absent, two _ nextOk present⟩

theorem Extends.andThen_adds (one : Extends first) (two : Adds kind next) :
    Adds kind (first.andThen next) := by
  refine ⟨one.andThen two.keeps, fun m ok => ?_⟩
  obtain ⟨firstOk, nextOk, through⟩ := Step.andThen_success ok
  obtain ⟨h, absent, present⟩ := two.added _ nextOk
  rw [through]
  exact ⟨h, fun before => absent (one m firstOk before), present⟩

end

section
variable {d : Driver} {side : Side} {slot : Slot}

theorem create_success {m : Machine} (ok : (create d slot m).1 = some .NICC_SUCCESS) :
    (create d slot m).2 = m.create Slot.kind slot (d.handle slot m.live) := by
  unfold create at ok ⊢
  by_cases granted : d.grants slot = true
  · rw [if_pos granted]
  · rw [if_neg granted] at ok
    cases ok

theorem create_extends : Extends (create d slot) := by
  intro m ok
  rw [create_success ok]
  exact Finset.subset_insert _ _

theorem create_adds (slot : Slot) : Adds slot.kind (create d slot) := by
  refine ⟨create_extends, fun m ok => ?_⟩
  rw [create_success ok]
  exact ⟨d.handle slot m.live, (d.fresh slot m.live).2, Finset.mem_insert_self _ _⟩

theorem check_extends {ok : Bool} {failure : Option Retval} : Extends (check ok failure) := by
  intro m _
  unfold check
  split_ifs <;> exact subset_rfl

theorem assertAddress_extends : Extends (assertAddress slot) := fun m ok => check_extends m ok

theorem allocateCq_extends (q : Queue) : Extends (allocateCq d side q) :=
  (create_extends.andThen (check_extends.andThen create_extends)).andThen create_extends

theorem allocateWqBuffers_extends (q : Queue) : Extends (allocateWqBuffers d side q) := by
  have creations : Extends ((create d ⟨side, .wqd q⟩).andThen <|
      (create d ⟨side, .wqRing q⟩).andThen <| allocateDbr d ⟨side, .wqDbr q⟩) :=
    create_extends.andThen (create_extends.andThen create_extends)
  intro m ok
  unfold allocateWqBuffers at ok ⊢
  exact creations _ ok

theorem allocateWqMemory_extends (q : Queue) : Extends (allocateWqMemory d side q) := by
  intro m ok
  unfold allocateWqMemory at ok ⊢
  by_cases enough : (allocateWqBuffers d side q m).1 = some .NICC_SUCCESS
  · simp only [enough, if_true]
    exact allocateWqBuffers_extends q m enough
  · simp only [enough, if_false] at ok
    split_ifs at ok
    exact absurd ok enough

theorem createDpaMkey_extends (daddr mkey : Field) : Extends (createDpaMkey d side daddr mkey) :=
  assertAddress_extends.andThen create_extends

theorem createDpaMkey_adds (daddr mkey : Field) :
    Adds mkey.kind (createDpaMkey d side daddr mkey) :=
  assertAddress_extends.andThen_adds (create_adds ⟨side, mkey⟩)

theorem initRqRing_extends (ring data : Field) : Extends (initRqRing d side ring data) :=
  assertAddress_extends.andThen (assertAddress_extends.andThen (check_extends.andThen check_extends))

theorem createEthernetQp_adds_mkey : Adds .mkey (createEthernetQp d side) := by
  have rest : Extends ((allocateWqMemory d side .rq).andThen <|
      (createDpaMkey d side (.wqd .rq) (.mkey .rq)).andThen <|
      (initRqRing d side (.wqRing .rq) (.wqd .rq)).andThen <|
      (create d ⟨side, .wqPtr .rq⟩).andThen <|
      check (d.copyDbr side) (some .NICC_ERROR_HARDWARE_FAILURE)) :=
    (allocateWqMemory_extends .rq).andThen <| (createDpaMkey_extends _ _).andThen <|
    (initRqRing_extends _ _).andThen <| create_extends.andThen check_extends
  exact (allocateWqMemory_extends .sq).andThen_adds <|
    create_extends.andThen_adds <| (createDpaMkey_adds _ (.mkey .sq)).andThen rest

theorem createRdmaQp_adds_mkey : Adds .mkey (createRdmaQp d side) := by
  have memory : Extends (allocateQpMemory d side) := create_extends.andThen create_extends
  have rest : Extends ((initRqRing d side .qpRing .qpdMbuf).andThen (create d ⟨side, .qpPtr⟩)) :=
    (initRqRing_extends _ _).andThen create_extends
  exact create_extends.andThen_adds <|
    memory.andThen_adds <| (createDpaMkey_adds _ .qpdMkey).andThen rest

theorem createQp_adds_mkey (type : ChannelType) : Adds .mkey (createQp d side type) := by
  have unknown : Adds .mkey (check false (some .NICC_ERROR_NOT_FOUND)) :=
    ⟨check_extends, fun m ok => absurd ok (by simp [check])⟩
  cases type with
  | UNKNOWN_TYPE => exact unknown
  | SHM => exact unknown
  | RDMA => exact createRdmaQp_adds_mkey
  | ETHERNET => exact createEthernetQp_adds_mkey

end

theorem allocateChannel_adds_mkey (d : Driver) (types : Side → ChannelType) :
    Adds .mkey (allocateChannel d types) := by
  have rest : Extends ((setLocalQpInfo d .prior (types .prior)).andThen <|
      (setLocalQpInfo d .next (types .next)).andThen <|
      (copyMetadata d .prior).andThen <| copyMetadata d .next) :=
    check_extends.andThen <| check_extends.andThen <| create_extends.andThen create_extends
  exact (allocateCq_extends .sq).andThen_adds <| (allocateCq_extends .sq).andThen_adds <|
    (allocateCq_extends .rq).andThen_adds <| (allocateCq_extends .rq).andThen_adds <|
    (createQp_adds_mkey _).andThen <| (createQp_adds_mkey _).keeps.andThen rest

theorem releaseAll_keeps_live {a : Attempt} {cells : List (Slot × Bool)} {kind : Kind} {h : Nat}
    (other : ∀ c ∈ cells, c.1.kind ≠ kind) :
    Keeps (fun m => (kind, h) ∈ m.live) (releaseAll a cells) :=
  fun _ alive => Ledger.walk_keeps_live other alive

theorem deallocateChannel_keeps_mkey (a : Attempt) (h : Nat) :
    Keeps (fun m => (.mkey, h) ∈ m.live) (deallocateChannel a) := by
  have queues : ∀ c ∈ queueCells, c.1.kind ≠ Kind.mkey := by decide
  have metadata : ∀ c ∈ metadataCells, c.1.kind ≠ Kind.mkey := by decide
  have devQueues : Keeps (fun m => (.mkey, h) ∈ m.live) (freeDevQueues a) := fun _ alive => alive
  rw [deallocateChannel_eq]
  exact (releaseAll_keeps_live queues).andThen <|
    devQueues.andThen (releaseAll_keeps_live metadata)

theorem deallocateChannel_not_restores (d : Driver) (types : Side → ChannelType) (a : Attempt)
    (m : Machine) (allocated : (allocateChannel d types m).1 = some .NICC_SUCCESS)
    (_deallocated :
      (deallocateChannel a (allocateChannel d types m).2).1 = some .NICC_SUCCESS) :
    (deallocateChannel a (allocateChannel d types m).2).2.live ≠ m.live := by
  obtain ⟨h, absent, present⟩ := (allocateChannel_adds_mkey d types).added m allocated
  have left : (Kind.mkey, h) ∈ (deallocateChannel a (allocateChannel d types m).2).2.live :=
    deallocateChannel_keeps_mkey a h _ present
  intro same
  rw [same] at left
  exact absent left

theorem ethernet_not_restored :
    (deallocateChannel grantingAttempt
      (allocateChannel grantingDriver (fun _ => .ETHERNET) (constructed ∅ fun _ => 0)).2).2.live ≠
        (constructed ∅ fun _ => 0).live :=
  deallocateChannel_not_restores grantingDriver (fun _ => .ETHERNET) grantingAttempt
    (constructed ∅ fun _ => 0) (by decide) (by decide)

theorem rdma_not_restored :
    (allocateChannel grantingDriver (fun _ => .RDMA) (constructed ∅ fun _ => 0)).1 = some .NICC_SUCCESS ∧
    (deallocateChannel grantingAttempt
      (allocateChannel grantingDriver (fun _ => .RDMA) (constructed ∅ fun _ => 0)).2).1 =
        some .NICC_SUCCESS ∧
    (deallocateChannel grantingAttempt
      (allocateChannel grantingDriver (fun _ => .RDMA) (constructed ∅ fun _ => 0)).2).2.live ≠
        (constructed ∅ fun _ => 0).live := by
  decide

end Nicc.Dpa.Channel
