import DpdkWrapper.Ports.Lifecycle

/-!
# Runtimes

A `runtime` owns the EAL and its ports.  Runtimes are constructed, moved, overwritten
and destroyed in any order; a process-wide flag admits one owner at a time.
-/

namespace DpdkWrapper.Ports

/-- `runtime`. -/
structure Runtime where
  ownsEal : Bool
  ports : List Port
  deriving DecidableEq, Repr

/-- The runtime objects in the order of their creation (`none` for a destroyed one),
`g_runtime_exists`, the calls made to DPDK, and the number of ports constructed. -/
structure Process where
  objects : List (Option Runtime)
  runtimeExists : Bool
  log : List DpdkCall
  serial : Nat
  deriving DecidableEq, Repr

/-- What an application does with runtimes.  A construction comes with the result of
`rte_eal_init` and the text of its error, `add_port` with those of the setup calls, and
with a pool or without. -/
inductive RuntimeOp where
  | construct (init : Bool) (reason : String)
  | moveConstruct (source : Nat)
  | moveAssign (target source : Nat)
  | destroy (object : Nat)
  | addPort (object : Nat) (portId nRxQueues nTxQueues : BitVec 16) (pool : Bool)
      (env : SetupEnv) (reason : String)

/-- Whether a device is started, as far as the calls made tell. -/
def isStarted (portId : BitVec 16) (log : List DpdkCall) : Bool :=
  log.foldl (fun started call =>
    match call with
    | .devStart other true => started || other == portId
    | .devStop other => started && other != portId
    | _ => started) false

/-- `ports_.clear()`. -/
def clearPorts (ports : List Port) : List DpdkCall :=
  ports.flatMap Port.destroy

namespace Process

def start : Process := ⟨[], false, [], 0⟩

/-- A live runtime object. -/
def runtime? (process : Process) (object : Nat) : Option Runtime :=
  process.objects[object]?.join

/-- The constructor: the text of its exception, if it throws. -/
def construct (process : Process) (init : Bool) (reason : String) : Option String × Process :=
  if process.runtimeExists then
    (some "Only one dpdk::runtime may exist per process", process)
  else if !init then
    -- The flag is raised for the call and taken back.
    (some ("rte_eal_init failed: " ++ reason),
      { process with runtimeExists := false, log := process.log ++ [.ealInit false] })
  else
    (none, { process with
      objects := process.objects ++ [some ⟨true, []⟩]
      runtimeExists := true
      log := process.log ++ [.ealInit true] })

/-- The body that `~runtime` and the move assignment share: an owner clears its ports and
cleans up the EAL.  It returns the ports that are left. -/
def release (process : Process) (runtime : Runtime) : List Port × Process :=
  if runtime.ownsEal then
    ([], { process with
      runtimeExists := false
      log := process.log ++ clearPorts runtime.ports ++ [.ealCleanup] })
  else
    (runtime.ports, process)

/-- The move constructor. -/
def moveConstruct (process : Process) (source : Nat) (other : Runtime) : Process :=
  { process with
    objects := process.objects.set source (some ⟨false, []⟩) ++
      [some ⟨other.ownsEal, other.ports⟩] }

/-- Move assignment between two objects.  The ports that are left are destroyed when the
deque is overwritten. -/
def moveAssign (process : Process) (target source : Nat) (runtime other : Runtime) : Process :=
  let released := process.release runtime
  { released.2 with
    objects := (process.objects.set target (some ⟨other.ownsEal, other.ports⟩)).set source
      (some ⟨false, []⟩)
    log := released.2.log ++ clearPorts released.1 }

/-- `runtime::~runtime`.  The ports that are left are destroyed with the deque. -/
def destroy (process : Process) (object : Nat) (runtime : Runtime) : Process :=
  let released := process.release runtime
  { released.2 with
    objects := process.objects.set object none
    log := released.2.log ++ clearPorts released.1 }

/-- `runtime::make_default_pool`: the text of its exception, if it throws. -/
def makeDefaultPool (portId : BitVec 16) (env : SetupEnv) (reason : String) : Option String :=
  if !env.isValidPort then
    some (invalidPort portId)
  else if !env.poolCreate then
    some ("rte_pktmbuf_pool_create(\"PORT_" ++ toString portId.toNat ++ "_POOL\") failed: " ++
      reason)
  else
    none

/-- `runtime::add_port`, in both forms.  The port is constructed in place, moved into the
deque, and the moved-from one destroyed. -/
def addPort (process : Process) (object : Nat) (runtime : Runtime)
    (portId nRxQueues nTxQueues : BitVec 16) (pool : Bool) (env : SetupEnv) (reason : String) :
    Option String × Process :=
  match if pool then none else makeDefaultPool portId env reason with
  | some message => (some message, process)
  | none =>
      match Port.construct process.serial portId nRxQueues nTxQueues env
        (isStarted portId process.log) with
      | (.error message, calls) =>
          (some message, { process with
            log := process.log ++ calls
            serial := process.serial + 1 })
      | (.ok port, calls) =>
          let moved := port.moveConstruct
          (none, { process with
            objects := process.objects.set object
              (some { runtime with ports := runtime.ports ++ [moved.1] })
            log := process.log ++ calls ++ moved.2.destroy
            serial := process.serial + 1 })

/-- One operation, with the text of the exception if it throws.  `none` stands for an
object that is not alive, or for `add_port` on one that does not own the EAL. -/
def step (process : Process) : RuntimeOp → Option (Option String × Process)
  | .construct init reason => some (process.construct init reason)
  | .moveConstruct source => do
      let other ← process.runtime? source
      some (none, process.moveConstruct source other)
  | .moveAssign target source => do
      let runtime ← process.runtime? target
      let other ← process.runtime? source
      if target = source then
        some (none, process)
      else
        some (none, process.moveAssign target source runtime other)
  | .destroy object => do
      let runtime ← process.runtime? object
      some (none, process.destroy object runtime)
  | .addPort object portId nRxQueues nTxQueues pool env reason => do
      let runtime ← process.runtime? object
      if runtime.ownsEal then
        some (process.addPort object runtime portId nRxQueues nTxQueues pool env reason)
      else
        none

def run (process : Process) (ops : List RuntimeOp) : Option Process :=
  ops.foldlM (fun current op => (current.step op).map Prod.snd) process

end Process

end DpdkWrapper.Ports
