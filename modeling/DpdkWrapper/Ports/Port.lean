import DpdkWrapper.Ports.Claims

/-!
# Ports

A `port` owns one device.  Its constructor configures and starts the device, its moves
hand the device over, and its destructor stops and closes it.  The results of DPDK's
setup calls are given from outside; the calls that start and stop things are logged.
-/

namespace DpdkWrapper.Ports

/-! ## The environment -/

/-- The DPDK calls that bring something up or down, with the result of those that can
fail. -/
inductive DpdkCall where
  | ealInit (ok : Bool)
  | ealCleanup
  | devStart (portId : BitVec 16) (ok : Bool)
  | devStop (portId : BitVec 16)
  | devClose (portId : BitVec 16)
  deriving DecidableEq, Repr

/-- Whether the setup calls of one `add_port` succeed: `rte_eth_dev_is_valid_port`,
`rte_pktmbuf_pool_create` and those of the constructor of `port`. -/
structure SetupEnv where
  isValidPort : Bool
  poolCreate : Bool
  configure : Bool
  adjustDesc : Bool
  infoGet : Bool
  rxQueueSetup : Nat → Bool
  txQueueSetup : Nat → Bool
  start : Bool

/-! ## Queues -/

inductive QueueKind where
  | rx
  | tx
  deriving DecidableEq, Repr

/-- What the messages call the kind. -/
def QueueKind.text : QueueKind → String
  | rx => "RX"
  | tx => "TX"

/-- An `rx_queue` or `tx_queue`.  The serial number of the construction stands for the
address of the object. -/
structure Queue where
  serial : Nat
  kind : QueueKind
  portId : BitVec 16
  queueId : Nat
  deriving DecidableEq, Repr

/-! ## Ports -/

/-- `port`, without the pool and the IPv4 address. -/
structure Port where
  portId : BitVec 16
  rx : QueueSet Queue
  tx : QueueSet Queue
  ownsDevice : Bool
  deriving DecidableEq, Repr

/-- The text of a `dpdk_error` about a port. -/
def portError (what : String) (portId : BitVec 16) : String :=
  what ++ " failed on port " ++ toString portId.toNat

/-- The text that `check_valid_port` and `make_default_pool` throw. -/
def invalidPort (portId : BitVec 16) : String :=
  "Port " ++ toString portId.toNat ++ " is not a valid DPDK port"

/-- The loop that sets up the queues of one kind, one after the other. -/
def setupQueues (setup : Nat → Bool) (what : String) (serial : Nat) (kind : QueueKind)
    (portId : BitVec 16) (count : Nat) : Except String (List Queue) :=
  (List.range count).mapM fun q =>
    if setup q then
      .ok ⟨serial, kind, portId, q⟩
    else
      .error (portError what portId ++ " queue " ++ toString q)

/-- Queues of which none is claimed. -/
def QueueSet.unclaimed (queues : List Queue) : QueueSet Queue :=
  ⟨queues, List.replicate queues.length false, 0⟩

/-- What a moved-from object keeps: its vectors are empty, the cursor stays. -/
def QueueSet.emptied (set : QueueSet Queue) : QueueSet Queue :=
  { set with queues := [], claimed := [] }

namespace Port

/-- The constructor of `port`.  `rte_eth_dev_configure` fails on a started device. -/
def construct (serial : Nat) (portId nRxQueues nTxQueues : BitVec 16) (env : SetupEnv)
    (started : Bool) : Except String Port × List DpdkCall :=
  if !env.isValidPort then
    (.error (invalidPort portId), [])
  else if !env.configure || started then
    (.error (portError "rte_eth_dev_configure" portId), [])
  else if !env.adjustDesc then
    (.error (portError "rte_eth_dev_adjust_nb_rx_tx_desc" portId), [])
  else if !env.infoGet then
    (.error (portError "rte_eth_dev_info_get" portId), [])
  else
    match setupQueues env.rxQueueSetup "rte_eth_rx_queue_setup" serial .rx portId
      nRxQueues.toNat with
    | .error message => (.error message, [])
    | .ok rxQueues =>
        match setupQueues env.txQueueSetup "rte_eth_tx_queue_setup" serial .tx portId
          nTxQueues.toNat with
        | .error message => (.error message, [])
        | .ok txQueues =>
            if !env.start then
              (.error (portError "rte_eth_dev_start" portId), [.devStart portId false])
            else
              (.ok ⟨portId, .unclaimed rxQueues, .unclaimed txQueues, true⟩,
                [.devStart portId true])

/-- What a moved-from port keeps. -/
def movedFrom (other : Port) : Port :=
  { other with rx := other.rx.emptied, tx := other.tx.emptied, ownsDevice := false }

/-- The move constructor: the new object, and what is left of the old one. -/
def moveConstruct (other : Port) : Port × Port :=
  (other, other.movedFrom)

/-- `port::~port`. -/
def destroy (port : Port) : List DpdkCall :=
  if port.ownsDevice then [.devStop port.portId, .devClose port.portId] else []

/-- Move assignment between two objects. -/
def moveAssign (port other : Port) : (Port × Port) × List DpdkCall :=
  ((other, other.movedFrom),
    if port.ownsDevice then [.devStop port.portId, .devClose port.portId] else [])

/-- `claim_rx_queue()`. -/
def claimRxQueue (port : Port) : Option (Option Queue × Port) :=
  port.rx.claimNext.map fun claim => (claim.1, { port with rx := claim.2 })

/-- `claim_tx_queue()`. -/
def claimTxQueue (port : Port) : Option (Option Queue × Port) :=
  port.tx.claimNext.map fun claim => (claim.1, { port with tx := claim.2 })

/-- `claim_rx_queue(queue_id)`. -/
def claimRxQueueById (port : Port) (queueId : BitVec 16) :
    Option (Except String (Option Queue) × Port) :=
  (port.rx.claimById queueId port.portId QueueKind.rx.text).map fun claim =>
    (claim.1, { port with rx := claim.2 })

/-- `claim_tx_queue(queue_id)`. -/
def claimTxQueueById (port : Port) (queueId : BitVec 16) :
    Option (Except String (Option Queue) × Port) :=
  (port.tx.claimById queueId port.portId QueueKind.tx.text).map fun claim =>
    (claim.1, { port with tx := claim.2 })

/-! ## Both kinds alike -/

/-- The queues of a kind. -/
def queueSet (port : Port) : QueueKind → QueueSet Queue
  | .rx => port.rx
  | .tx => port.tx

/-- The port with other queues of a kind. -/
def withQueueSet (port : Port) : QueueKind → QueueSet Queue → Port
  | .rx, set => { port with rx := set }
  | .tx, set => { port with tx := set }

def claimQueue (port : Port) : QueueKind → Option (Option Queue × Port)
  | .rx => port.claimRxQueue
  | .tx => port.claimTxQueue

def claimQueueById (port : Port) (queueId : BitVec 16) :
    QueueKind → Option (Except String (Option Queue) × Port)
  | .rx => port.claimRxQueueById queueId
  | .tx => port.claimTxQueueById queueId

theorem claimQueue_eq (port : Port) (kind : QueueKind) :
    port.claimQueue kind = (port.queueSet kind).claimNext.map fun claim =>
      (claim.1, port.withQueueSet kind claim.2) := by
  cases kind <;> rfl

theorem claimQueueById_eq (port : Port) (queueId : BitVec 16) (kind : QueueKind) :
    port.claimQueueById queueId kind =
      ((port.queueSet kind).claimById queueId port.portId kind.text).map fun claim =>
        (claim.1, port.withQueueSet kind claim.2) := by
  cases kind <;> rfl

@[simp]
theorem queueSet_withQueueSet (port : Port) (kind : QueueKind) (set : QueueSet Queue) :
    (port.withQueueSet kind set).queueSet kind = set := by
  cases kind <;> rfl

/-- A change of one kind is no change of the other. -/
theorem queueSet_withQueueSet_of_ne (port : Port) {kind other : QueueKind}
    (different : other ≠ kind) (set : QueueSet Queue) :
    (port.withQueueSet kind set).queueSet other = port.queueSet other := by
  cases kind <;> cases other <;> first | rfl | exact absurd rfl different

@[simp]
theorem queueSet_movedFrom (port : Port) (kind : QueueKind) :
    port.movedFrom.queueSet kind = (port.queueSet kind).emptied := by
  cases kind <;> rfl

/-! ## Construction -/

/-- The queues of a kind of a new port, in the order of their numbers. -/
def newQueues (serial : Nat) (portId : BitVec 16) (kind : QueueKind) (count : Nat) :
    List Queue :=
  (List.range count).map fun q => ⟨serial, kind, portId, q⟩

/-- The port that a successful construction leaves. -/
def opened (serial : Nat) (portId nRxQueues nTxQueues : BitVec 16) : Port where
  portId := portId
  rx := .unclaimed (newQueues serial portId .rx nRxQueues.toNat)
  tx := .unclaimed (newQueues serial portId .tx nTxQueues.toNat)
  ownsDevice := true

theorem mapM_ok {α β : Type} {check : α → Bool} {make : α → β} {message : α → String}
    {items : List α} {made : List β}
    (ran : (items.mapM fun item => if check item then Except.ok (make item)
      else Except.error (message item)) = .ok made) : made = items.map make := by
  induction items generalizing made with
  | nil =>
      cases ran
      rfl
  | cons item rest ih =>
      rw [List.mapM_cons] at ran
      split at ran
      · cases tail : (rest.mapM fun item => if check item then Except.ok (make item)
            else Except.error (message item)) with
        | error failure =>
            rw [tail] at ran
            cases ran
        | ok later =>
            rw [tail] at ran
            cases ran
            rw [List.map_cons, ih tail]
      · cases ran

theorem setupQueues_ok {setup : Nat → Bool} {what : String} {serial : Nat} {kind : QueueKind}
    {portId : BitVec 16} {count : Nat} {queues : List Queue}
    (set : setupQueues setup what serial kind portId count = .ok queues) :
    queues = newQueues serial portId kind count :=
  mapM_ok set

/-- A construction throws before it tries to start the device, or it tries to start a
device that is not started: if that fails it throws, if not it leaves a port with all its
queues. -/
theorem construct_cases (serial : Nat) (portId nRxQueues nTxQueues : BitVec 16)
    (env : SetupEnv) (started : Bool) :
    (∃ message, construct serial portId nRxQueues nTxQueues env started = (.error message, [])) ∨
      started = false ∧
        ((∃ message, construct serial portId nRxQueues nTxQueues env started =
            (.error message, [.devStart portId false])) ∨
          construct serial portId nRxQueues nTxQueues env started =
            (.ok (opened serial portId nRxQueues nTxQueues), [.devStart portId true])) := by
  rw [construct]
  split
  · exact .inl ⟨_, rfl⟩
  split
  · exact .inl ⟨_, rfl⟩
  rename_i configured
  have notStarted : started = false := by
    cases started with
    | false => rfl
    | true => simp at configured
  split
  · exact .inl ⟨_, rfl⟩
  split
  · exact .inl ⟨_, rfl⟩
  split
  · exact .inl ⟨_, rfl⟩
  rename_i rxQueues rxSet
  split
  · exact .inl ⟨_, rfl⟩
  rename_i txQueues txSet
  refine .inr ⟨notStarted, ?_⟩
  split
  · exact .inl ⟨_, rfl⟩
  · right
    rw [setupQueues_ok rxSet, setupQueues_ok txSet]
    rfl

end Port

end DpdkWrapper.Ports
