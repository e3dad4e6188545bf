/-
# What a workload makes of its parameters

The search runs a workload with a dictionary of parameters. The workload formats them into
the arguments, the environment variables and the paths of the processes that it starts. Most
parameters are printed as they are, so that an integer and a double of the same value give
different texts.
-/

import Datamime.Fault
import Datamime.Math.Dict
import Datamime.Math.PyNumber

namespace Datamime.Search

open Datamime.Math

/-! ## Parameters -/

/-- The keys of `workloads_dict`. -/
inductive WorkloadType
  | memcached
  | silo
  | xapian
  | dnn
  deriving DecidableEq

/-- A range parameter. -/
structure ParamDetails where
  name : List Char
  lower : ℚ
  upper : ℚ

/-- `all_params[wltype]["parameters"]`. -/
def allParams : WorkloadType → List ParamDetails
  | .memcached => [
      ⟨"qps".toList, 10000, 300000⟩,
      ⟨"key_mean".toList, 10, 150⟩,
      ⟨"key_stdev".toList, 1 / 100, 10⟩,
      ⟨"val_mean".toList, 10, 10000⟩,
      ⟨"val_stdev".toList, 1 / 100, 100⟩,
      ⟨"update_ratio".toList, 0, 1⟩]
  | .silo => [
      ⟨"qps".toList, 5000, 100000⟩,
      ⟨"scale_factor".toList, 1, 20⟩,
      ⟨"fq_neworder".toList, 1, 96⟩,
      ⟨"fq_payment".toList, 1, 96⟩,
      ⟨"fq_delivery".toList, 1, 96⟩,
      ⟨"fq_orderstatus".toList, 1, 96⟩]
  | .xapian => [
      ⟨"qps".toList, 50, 2000⟩,
      ⟨"skew".toList, 0, 3⟩,
      ⟨"terms_ulimit".toList, 2, 100⟩,
      ⟨"avg_doc_len".toList, 1, 10⟩]
  | .dnn => [
      ⟨"qps".toList, 5, 1000⟩,
      ⟨"conv_layers".toList, 1, 100⟩,
      ⟨"strided_conv_layers".toList, 2, 5⟩,
      ⟨"maxpool_layers".toList, 1, 5⟩,
      ⟨"fc_layers".toList, 1, 3⟩,
      ⟨"init_channels".toList, 3, 64⟩]

/-- The names of the parameters of a workload. -/
def paramNames (wltype : WorkloadType) : List (List Char) :=
  (allParams wltype).map ParamDetails.name

/-- A dictionary of parameters. -/
abbrev Params (doubles : Doubles) := Dict (List Char) (PyNumber doubles)

/-! ## Command lines -/

/-- What else the texts are built from: the configuration and the machine. -/
structure Site where
  nthreads : ℕ
  user : List Char
  scratchDir : List Char
  appsRoot : List Char
  dataRoot : List Char
  pythonpath : List Char
  serverBin : List Char
  clientBin : List Char
  numaNodes : ℕ
  node0Procs : ℕ

/-- `os.path.join`, for a relative second part. -/
def pathJoin (first second : List Char) : List Char :=
  if first = [] ∨ first.getLast? = some '/' then first ++ second else first ++ '/' :: second

/-- The texts of a run: the commands that it starts, and the environment variables that it
sets for them. -/
structure Launches where
  commands : List (List (List Char))
  environment : List (List Char × List Char)
  deriving DecidableEq

section

variable {doubles : Doubles}

/-- `params[name]`. -/
def param (params : Params doubles) (name : String) : Except PyError (PyNumber doubles) :=
  match params.get? name.toList with
  | some value => .ok value
  | none => .error .keyError

/-- The texts of `DnnWorkload.run`. -/
def dnnLaunches (site : Site) (convLayers stridedConvLayers maxpoolLayers fcLayers initChannels
    qps : PyNumber doubles) : Launches where
  commands := [
    [site.pythonpath, pathJoin site.appsRoot "dnn/scripts/create-model.py".toList,
      "-c".toList, convLayers.str,
      "-t".toList, stridedConvLayers.str,
      "-m".toList, maxpoolLayers.str,
      "-f".toList, fcLayers.str,
      "-o".toList, initChannels.str,
      "-g".toList, "-r".toList,
      "-P".toList, site.scratchDir],
    [site.serverBin, "-r".toList, "10000000".toList,
      "-m".toList, pathJoin site.scratchDir "custom_model.pt".toList]]
  environment := [
    ("SCRATCH_DIR".toList, site.scratchDir),
    ("IMAGENET_PATH".toList, pathJoin site.dataRoot "dnn/imagenet".toList),
    ("TBENCH_QPS".toList, qps.str),
    ("TBENCH_MAXREQS".toList, "1000000000".toList),
    ("TBENCH_WARMUPREQS".toList, "100".toList),
    ("TBENCH_MINSLEEPNS".toList, "1000".toList),
    ("OMP_NUM_THREADS".toList, "4".toList)]

/-- `DnnWorkload.run`. -/
def dnnRun (site : Site) (params : Params doubles) : Except PyError Launches := do
  let convLayers ← param params "conv_layers"
  let stridedConvLayers ← param params "strided_conv_layers"
  let maxpoolLayers ← param params "maxpool_layers"
  let fcLayers ← param params "fc_layers"
  let initChannels ← param params "init_channels"
  let qps ← param params "qps"
  return dnnLaunches site convLayers stridedConvLayers maxpoolLayers fcLayers initChannels qps

/-- The texts of `XapianWorkload.run`, but for the library path, which no parameter enters. -/
def xapianLaunches (site : Site) (qps skew termsUlimit avgDocLen : PyNumber doubles) : Launches :=
  let tul := termsUlimit.mul (.int 100)
  let avgdl := avgDocLen.mul (.int 100)
  let nd := "nd600000_avgdl".toList
  let dbrootpath := pathJoin site.dataRoot "xapian/stackoverflow-dbs".toList
  let dbpath := pathJoin dbrootpath (nd ++ avgdl.str)
  let termspath := pathJoin dbrootpath "terms".toList
  { commands := [
      [site.serverBin, "-r".toList, "100000000".toList, "-n".toList, "1".toList,
        "-d".toList, dbpath]]
    environment := [
      ("SCRATCH_DIR".toList, site.scratchDir),
      ("TBENCH_QPS".toList, qps.str),
      ("TBENCH_ZIPF_SKEW".toList, skew.str),
      ("TBENCH_MAXREQS".toList, "1000000000".toList),
      ("TBENCH_WARMUPREQS".toList, "100".toList),
      ("TBENCH_MINSLEEPNS".toList, "1000".toList),
      ("TBENCH_TERMS_FILE".toList,
        pathJoin termspath (nd ++ avgdl.str ++ "/terms_ul".toList ++ tul.str ++ ".in".toList))] }

/-- `XapianWorkload.run`. -/
def xapianRun (site : Site) (params : Params doubles) : Except PyError Launches := do
  let qps ← param params "qps"
  let skew ← param params "skew"
  let termsUlimit ← param params "terms_ulimit"
  let avgDocLen ← param params "avg_doc_len"
  return xapianLaunches site qps skew termsUlimit avgDocLen

/-- The texts of `SiloWorkload.run`. -/
def siloLaunches (site : Site) (qps scaleFactor fqNeworder fqPayment fqDelivery fqOrderstatus
    fqStocklevel : PyNumber doubles) : Launches where
  commands := [
    ["numactl".toList, "-C".toList, "3,4,5,6,7,11,12,13,14,15".toList,
      site.serverBin, "--bench".toList, "tpcc".toList,
      "--num-threads".toList, Text.ofInt site.nthreads,
      "--scale-factor".toList, scaleFactor.str,
      "--retry-aborted-transactions".toList,
      "--ops-per-worker".toList, "1000000000000".toList]]
  environment := [
    ("SCRATCH_DIR".toList, site.scratchDir),
    ("TBENCH_QPS".toList, qps.str),
    ("TBENCH_MAXREQS".toList, "1000000000".toList),
    ("WORKLOAD".toList, "tpcc".toList),
    ("TBENCH_WARMUPREQS".toList, "20000".toList),
    ("FQ_NEWORDER".toList, fqNeworder.str),
    ("FQ_PAYMENT".toList, fqPayment.str),
    ("FQ_DELIVERY".toList, fqDelivery.str),
    ("FQ_ORDERSTATUS".toList, fqOrderstatus.str),
    ("FQ_STOCKLEVEL".toList, fqStocklevel.str)]

/-- `SiloWorkload.run`. -/
def siloRun (site : Site) (params : Params doubles) : Except PyError Launches := do
  let qps ← param params "qps"
  let scaleFactor ← param params "scale_factor"
  let fqNeworder ← param params "fq_neworder"
  let fqPayment ← param params "fq_payment"
  let fqDelivery ← param params "fq_delivery"
  let fqOrderstatus ← param params "fq_orderstatus"
  let fqStocklevel :=
    ((((PyNumber.int 100).sub fqNeworder).sub fqPayment).sub fqDelivery).sub fqOrderstatus
  if fqStocklevel.isPositive then
    return siloLaunches site qps scaleFactor fqNeworder fqPayment fqDelivery fqOrderstatus
      fqStocklevel
  else throw .assertionError

/-- `quantize`, and what `MemcachedWorkload.run` does to its parameters before. -/
def quantize (value : PyNumber doubles) : doubles.Double := doubles.toHundredths value.toFloat

/-- `Normal(mean, sd).argstr()`. -/
def normalArgstr (mean sd : doubles.Double) : List Char :=
  "normal:".toList ++ doubles.repr (doubles.toHundredths mean) ++
    ',' :: doubles.repr (doubles.toHundredths sd)

/-- The texts of `MemcachedWorkload.run`. -/
def memcachedLaunches (site : Site) (keyMean keyStdev valMean valStdev updateRatio : doubles.Double)
    (qps : ℤ) : Launches :=
  let paramstr :=
    " -K ".toList ++ normalArgstr keyMean keyStdev ++
    " -V ".toList ++ normalArgstr valMean valStdev ++
    " -q ".toList ++ Text.ofInt (qps * site.nthreads) ++
    " -u ".toList ++ doubles.repr (doubles.toHundredths updateRatio)
  let firstrunOptstr := "-s 127.0.0.1 -r 1000000 --loadonly".toList ++ paramstr
  let mutilateNthreads :=
    if 2 * site.node0Procs < site.nthreads * 10 then 22 else site.nthreads * 10
  let secondrunOptstr :=
    (if 1 < site.numaNodes then "--cpunodebind=1 --membind=1 ".toList
      else "-C 3,4,5,6,7,11,12,13,14,15 ".toList) ++
    site.clientBin ++ " --noload -s 127.0.0.1 -r 1000000 -t 6000 -T ".toList ++
    Text.ofInt mutilateNthreads ++ " -c 10".toList ++ paramstr
  { commands := [
      ["numactl".toList, "--cpunodebind=0".toList, "--membind=0".toList,
        site.serverBin, "-t".toList, Text.ofInt site.nthreads,
        "-u".toList, site.user,
        "-m".toList, "2048".toList,
        "-I".toList, "128m".toList],
      site.clientBin :: firstrunOptstr.splitOn ' ',
      "numactl".toList :: secondrunOptstr.splitOn ' ']
    environment := [("SCRATCH_DIR".toList, site.scratchDir)] }

/-- `MemcachedWorkload.run`. -/
def memcachedRun (site : Site) (params : Params doubles) : Except PyError Launches := do
  let keyMean ← param params "key_mean"
  let keyStdev ← param params "key_stdev"
  let valMean ← param params "val_mean"
  let valStdev ← param params "val_stdev"
  let updateRatio ← param params "update_ratio"
  let qps ← param params "qps"
  return memcachedLaunches site (quantize keyMean) (quantize keyStdev) (quantize valMean)
    (quantize valStdev) (quantize updateRatio) qps.toInt

/-- `Workload.run`. -/
def workloadRun (site : Site) : WorkloadType → Params doubles → Except PyError Launches
  | .memcached => memcachedRun site
  | .silo => siloRun site
  | .xapian => xapianRun site
  | .dnn => dnnRun site

end

end Datamime.Search
