import PanoStress.Config
import PanoStress.Stats
import PanoStress.Node
import PanoStress.Machine
import PanoStress.Proof.Step
import PanoStress.Proof.Inv
import PanoStress.Proof.Session
import PanoStress.Proof.Poll
import PanoStress.Proof.Signal
import PanoStress.Proof.Nonce
import PanoStress.Proof.Rotation
import PanoStress.Proof.History
import PanoStress.Proof.Phase
import PanoStress.Proof.Schedule
import PanoStress.Proof.Termination
import PanoStress.Proof.Ideal
import PanoStress.Proof.Calls
import PanoStress.Proof.Tick
import PanoStress.Proof.Completion
import PanoStress.Proof.Shared
import PanoStress.Proof.Joint
import PanoStress.Proof.Forget
import PanoStress.Proof.Adequacy
import PanoStress.Proof.Traces
import PanoStress.Proof.Timing
