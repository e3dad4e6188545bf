/-
# The state of the profiler

The profiler attaches to the threads of a program, arms one group of performance
events at a time for each of them and reacts to the signal that the kernel sends
at the end of every phase. This module defines the data that the signal handler
works on, under the names of the source: the globals of the miss-curve monitor,
the record of each thread and its event groups, and the constants of a run.

Doubles are read as exact values that keep infinities and not-a-number. A hardware
counter is a 64-bit word.
-/

import Datamime.Hardware.Cmt
import Datamime.Math.Dict
import Datamime.Math.ExtendedRational

namespace Datamime.Profiler

open Datamime.Math Datamime.Hardware

/-- A word of a ring buffer. -/
abbrev Word := BitVec 64

def MAX_GROUP_EVENTS : ℕ := 6

def PHASES_BETWEEN_SWITCHES : ℕ := 10

def PERF_RECORD_SAMPLE : ℕ := 9

def SIGSTOP : ℕ := 19

def SIGTRAP : ℕ := 5

def PTRACE_EVENT_STOP : ℕ := 128

/-- `num_permanent_events + num_clock_events`. -/
def numFixedEvents : ℕ := 3

/-- The columns of the estimate matrices. -/
def estimateColumns : ℕ := 1000

def HIST_WINDOW_LENGTH : ℕ := 3

/-- Estimate a point every `monitorLen` phases. -/
def monitorLen : ℕ := 1

/-- The array-scanning threads. -/
def numScanThreads : ℕ := 1

/-- An opened performance event. -/
structure PerfEvent where
  name : List Char
  fd : ℤ
  deriving DecidableEq

/-- A group of events that are counted together. The first event leads the group and
lends it its descriptor and its ring buffer. -/
structure EventGroup where
  tid : ℤ
  fd : ℤ
  fds : List PerfEvent
  leads : fds.head?.map PerfEvent.fd = some fd
  /-- The unread words of the ring buffer. -/
  buf : List Word
  timeMult : ℕ
  timeShift : ℕ
  /-- The overflows after which the kernel disables the group; `none` is no limit. -/
  refreshBudget : Option ℕ

/-- The events of a group that starts with `fd` are led by it. -/
theorem leads_cons (name : List Char) (fd : ℤ) (events : List PerfEvent) :
    (⟨name, fd⟩ :: events : List PerfEvent).head?.map PerfEvent.fd = some fd := rfl

def EventGroup.numEvents (group : EventGroup) : ℕ := group.fds.length

/-- What the profiler knows about a thread. -/
structure ThreadInfo where
  tidx : ℕ
  tid : ℤ
  tgid : ℤ
  cores : List ℕ
  phases : ℕ
  phasesWithCurrentGroup : ℕ
  isDummyThread : Bool
  xPoints : List ℕ
  yPointsIpc : List ERat
  yPointsMpki : List ERat
  mrcEstAvg : List ERat
  /-- The columns of the matrix. -/
  mrcEstimates : List (List ERat)
  ipcCurveAvg : List ERat
  /-- The columns of the matrix. -/
  ipcCurveEstimates : List (List ERat)
  mrcEstIndex : ℕ
  outfile : List Char
  /-- There is no such file outside the miss-curve mode. -/
  mrcOutfile : Option (List Char)
  ipcOutfile : Option (List Char)
  rmid : ℕ
  values : List Word
  lastInstrCtr : Word
  lastCyclesCtr : Word
  lastMemTrafficCtr : Word
  memTrafficLast : ℤ
  memTrafficTotal : ℤ
  avgCacheOccupancy : ℤ
  eventGroups : Dict ℤ EventGroup

/-- An entry of `currentlySampling`: the ways that a core was allocated, and whether
its sampling is finished (0), still running (1) or failed (5). -/
structure CoreSampling where
  ways : ℕ
  status : ℕ
  deriving DecidableEq

/-- A cache assignment: the ways of the profiled thread and those of all others. -/
structure Slice where
  sampled : List ℕ
  shared : List ℕ
  deriving DecidableEq

/-- The assignments that a sampling round goes through. The first one only warms up,
so there are at least two. -/
structure Plan where
  slices : List Slice
  twoSlices : 2 ≤ slices.length

def Plan.numWaysToSample (plan : Plan) : ℕ := plan.slices.length

/-- Linear interpolation of sampled points at given abscissas, from the linear-algebra library.
It throws or returns one value for each abscissa. -/
structure Interpolation where
  interp1 : List ERat → List ERat → List ERat → Option (List ERat)
  interp1_length : ∀ xs ys xi yi, interp1 xs ys xi = some yi → yi.length = xi.length

/-- A library that finds too few points to interpolate. -/
def noInterpolation : Interpolation where
  interp1 := fun _ _ _ => none
  interp1_length := nofun

/-- What stays the same during a run. -/
structure Config extends Interpolation where
  machine : Machine
  plan : Plan
  numPhases : ℕ
  mrcEstMode : Bool
  mrcProfileInterval : ℕ
  numProfiledThreads : ℕ

/-- The globals of the miss-curve monitor, and the registers that it writes. -/
structure Monitor where
  monitorStartFlag : Bool
  firstMRCInvocation : Bool
  sampleSlicesIdx : ℤ
  mrcInvokeMonitorLen : ℕ
  thrIdxProfiledGlobal : ℕ
  enableArrayScans : Bool
  currentlySampling : ℕ → CoreSampling
  loggingMRCFlags : ℕ → ℕ
  msrs : Msrs

/-- The whole state: the monitor, the threads by their ids, the thread of each group
descriptor, and the progress of the winding down. -/
structure State where
  monitor : Monitor
  tidMap : Dict ℤ ThreadInfo
  fdMap : Dict ℤ ℤ
  firstFinishedThread : ℤ
  done : Bool
  /-- The threads that were sent a stop signal, most recent first. -/
  stopped : List ℤ

end Datamime.Profiler
