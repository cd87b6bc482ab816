import IncrementalCalibration.Problem
import IncrementalCalibration.Layout
import IncrementalCalibration.Estimator
import IncrementalCalibration.Calls
import IncrementalCalibration.Ordering
import IncrementalCalibration.Rollback
import IncrementalCalibration.Runs
import IncrementalCalibration.Admission
import IncrementalCalibration.Removal
import IncrementalCalibration.Invariants
import IncrementalCalibration.Protocol
import IncrementalCalibration.Observation
import IncrementalCalibration.Throws
import IncrementalCalibration.Degraded
