import Mathlib.Logic.Function.Basic
import NukeLab.Program
import NukeLab.Tables
import NukeLab.Quantities

namespace NukeLab.Records

open Tables Quantities

abbrev Uuid := Nat

/-- Naive UTC, in microseconds. -/
abbrev Instant := Int

def second : Int := 1000000

def minute : Int := 60 * second

def hour : Int := 60 * minute

def day : Int := 24 * hour

theorem day_pos : 0 < day := by decide

structure User where
  username : String
  isActive : Bool
  nukeBalance : Int
  dailyAllowance : Int
  dailyAllowanceOverride : Option Int
  dailyAllowanceOverrideUntil : Option Instant
  maxServerRuntimeEnabled : Bool
  maxServerRuntime : Option Int
  creditRequestsBlocked : Bool
  creditRequestsBlockedUntil : Option Instant

/-- CPU cores are kept as the exact rationals that floats are, and memory and
disk sizes as the megabytes their texts parse to. -/
structure ServerPlan where
  name : String
  cpuLimit : ℚ
  memoryLimit : Int
  diskLimit : Int
  gpuLimit : Int
  maxServersPerUser : Int
  costPerHour : Int
  isActive : Bool
  priority : Int

structure EnvironmentTemplate where
  slug : String
  image : String
  toolImage : Option String

inductive ServerStatus
  | pending
  | starting
  | running
  | healthy
  | stopped
  deriving DecidableEq

/-- The statuses whose resources the quota and the platform pool count. -/
def ServerStatus.active : ServerStatus → Bool
  | .running | .starting => true
  | _ => false

structure Server where
  id : Uuid
  name : String
  userId : Uuid
  environmentId : Option Uuid
  planId : Option Uuid
  containerId : Option Uuid
  volumeId : Option Uuid
  status : ServerStatus
  allocatedCpu : ℚ
  allocatedMemory : Int
  allocatedDisk : Int
  allocatedGpu : Int
  stopReason : Option String
  totalCost : Int
  lastBilledAt : Option Instant
  expiresAt : Option Instant
  startedAt : Option Instant
  stoppedAt : Option Instant
  lastActivity : Option Instant
  statusReason : Option String := none

inductive TransactionType
  | adminGrant
  | adminDeduct
  | serverUsage
  | dailyAllowance
  deriving DecidableEq

/-- The text of an identifier is kept as the identifier. -/
inductive MetaValue
  | text (value : String)
  | flag (value : Bool)
  | number (value : Int)
  | uuid (value : Uuid)
  deriving DecidableEq

abbrev Metadata := List (String × MetaValue)

structure CreditTransaction where
  id : Uuid
  userId : Uuid
  amount : Int
  balanceAfter : Int
  type : TransactionType
  description : String
  serverId : Option Uuid
  actorId : Option Uuid
  metadata : Metadata
  createdAt : Instant

structure QuotaLimits where
  maxCpuTotal : ℚ
  maxMemoryTotal : Int
  maxDiskTotal : Int
  maxGpuTotal : Int
  maxServersTotal : Int

structure ResourceQuota extends QuotaLimits where
  usage : Usage
  usageDiskMb : Int

abbrev Device := String

structure GpuAllocation where
  id : Uuid
  serverId : Uuid
  device : Device
  createdAt : Instant

structure Volume where
  id : Uuid
  name : String
  ownerId : Uuid
  maxSizeBytes : Option Int
  deriving DecidableEq

structure ServerVolume where
  serverId : Uuid
  volumeId : Uuid
  mountPath : String
  mode : String
  isPrimary : Bool
  deriving DecidableEq

inductive QueueStatus
  | pending
  | started
  | failed
  | cancelled
  deriving DecidableEq

structure QueueEntry where
  id : Uuid
  userId : Uuid
  environmentId : Uuid
  planId : Uuid
  status : QueueStatus
  priority : Int
  serverName : String
  requestedCpu : ℚ
  requestedMemory : Int
  requestedDisk : Int
  requestedAt : Instant
  startedAt : Option Instant
  errorMessage : Option String
  retryCount : Int

inductive RequestStatus
  | pending
  | needsInfo
  | approved
  | rejected
  | cancelled
  deriving DecidableEq

inductive RequestType
  | topUp
  | allowance
  deriving DecidableEq

structure CreditRequest where
  id : Uuid
  userId : Uuid
  amount : Int
  reason : String
  requestType : RequestType
  status : RequestStatus
  reviewedBy : Option Uuid
  reviewNote : Option String
  grantedAmount : Option Int
  transactionId : Option Uuid
  createdAt : Instant
  reviewedAt : Option Instant

structure CreditRequestMessage where
  requestId : Uuid
  authorId : Uuid
  body : String
  isInternal : Bool
  createdAt : Instant

structure Container where
  id : Uuid
  name : String
  serverId : Uuid
  devices : List Device
  volumes : List String
  deriving DecidableEq

structure Settings where
  creditsEnabled : Bool
  creditsInitialBalance : Int
  creditsDailyAllowance : Int
  creditsMaxBalance : Int
  creditsAutoApproveMax : Int
  creditsRequestCooldownHours : Int
  serverAutoStopOnDepletion : Bool
  serverMaxRuntime : Int
  gpuEnabled : Bool
  gpuDeviceList : List Device
  quotaDefaults : QuotaLimits

end NukeLab.Records
