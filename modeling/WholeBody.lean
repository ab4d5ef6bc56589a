import WholeBody.Config.Fields
import WholeBody.Config.Read
import WholeBody.Config.Spec
import WholeBody.Contact.Friction
import WholeBody.Contact.Set
import WholeBody.Controller.Basic
import WholeBody.Controller.Log
import WholeBody.Decimal.Binary
import WholeBody.Decimal.Nearest
import WholeBody.Decimal.Rounding
import WholeBody.Decimal.Shortest
import WholeBody.Demo.Standing
import WholeBody.Error
import WholeBody.Gait
import WholeBody.Linear.Mat
import WholeBody.Linear.Quaternion
import WholeBody.Linear.Sparse
import WholeBody.Linear.Spectrum
import WholeBody.Linear.Vec
import WholeBody.Linear.Vec3
import WholeBody.Main
import WholeBody.Program.Assembly
import WholeBody.Program.Cone
import WholeBody.Program.Layout
import WholeBody.Program.Relaxation
import WholeBody.Program.Span
import WholeBody.Program.Stack
import WholeBody.Robot.FloatingBody
import WholeBody.Robot.Model
import WholeBody.Robot.PointMass
import WholeBody.Scalar
import WholeBody.Scalar.Float
import WholeBody.Settings
import WholeBody.Solver.Basic
import WholeBody.Solver.InteriorPoint.Buffer
import WholeBody.Solver.InteriorPoint.Cones
import WholeBody.Solver.InteriorPoint.Equilibration
import WholeBody.Solver.InteriorPoint.Factor
import WholeBody.Solver.InteriorPoint.Kkt
import WholeBody.Solver.InteriorPoint.Method
import WholeBody.Solver.InteriorPoint.Progress
import WholeBody.Solver.InteriorPoint.SparseRows
import WholeBody.SortedMap
import WholeBody.Toml.Document
import WholeBody.Toml.Moment
import WholeBody.Toml.Number
import WholeBody.Toml.Scan
import WholeBody.Toml.Text
import WholeBody.Toml.Tree
import WholeBody.Toml.Value
import WholeBody.Tracking.Gains
import WholeBody.Tracking.Objective
import WholeBody.Tracking.Sample
import WholeBody.Tracking.Term
import WholeBody.Proofs.Scalar.Real
import WholeBody.Proofs.Contact.FrictionCone
import WholeBody.Proofs.Linear.Vec3
import WholeBody.Proofs.Contact.Frame
import WholeBody.Proofs.Attempt
import WholeBody.Proofs.Validation
import WholeBody.Proofs.Program.Gathering
import WholeBody.Proofs.Program.Layout
import WholeBody.Proofs.Program.Shape
import WholeBody.Proofs.Program.Cones
import WholeBody.Proofs.Program.Stack
import WholeBody.Proofs.Program.Rows
import WholeBody.Proofs.Program.Feasibility
import WholeBody.Proofs.Program.Join
import WholeBody.Proofs.Robot.PointMass
import WholeBody.Proofs.Linear.Form
import WholeBody.Proofs.Program.Cost
import WholeBody.Proofs.Controller.Solving
import WholeBody.Proofs.Controller.Run
import WholeBody.Proofs.Controller.Held
import WholeBody.Proofs.Controller.Handed
import WholeBody.Proofs.Program.SoftFeasibility
import WholeBody.Proofs.Program.Convexity
import WholeBody.Proofs.Program.Uniqueness
import WholeBody.Proofs.Robot.Standing
import WholeBody.Proofs.Controller.Accounting
import WholeBody.Proofs.Program.Relaxing
import WholeBody.Proofs.Robot.Serving
import WholeBody.Proofs.Controller.Startup
import WholeBody.Proofs.Controller.Skipping
import WholeBody.Proofs.Program.Loosening
import WholeBody.Proofs.Program.Equations
import WholeBody.Proofs.Linear.Rotation
import WholeBody.Proofs.Robot.FloatingBody
import WholeBody.Proofs.Robot.NewtonEuler
import WholeBody.Proofs.Controller.Objectives
import WholeBody.Proofs.Controller.Readout
import WholeBody.Proofs.Program.Terms
import WholeBody.Proofs.Controller.Reordering
import WholeBody.Proofs.Linear.Sparse
import WholeBody.Proofs.Linear.Symmetric
import WholeBody.Proofs.Tracking.Weights
import WholeBody.Proofs.Program.Hessian
import WholeBody.Proofs.Tracking.Joints
import WholeBody.Proofs.Robot.Inverse
import WholeBody.Proofs.Robot.Rotors
import WholeBody.Proofs.SortedMap
import WholeBody.Proofs.Contact.Set
import WholeBody.Proofs.Config.Contacts
import WholeBody.Proofs.Config.Objectives
import WholeBody.Proofs.Linear.Quaternion
import WholeBody.Proofs.Linear.RotationVector
import WholeBody.Proofs.Tracking.OrientationError
import WholeBody.Proofs.Linear.Rate
import WholeBody.Proofs.Robot.Kinematics
import WholeBody.Proofs.Robot.Integration
import WholeBody.Proofs.Contact.Inscribed
import WholeBody.Proofs.Program.Merging
import WholeBody.Proofs.Program.Violation
import WholeBody.Proofs.Controller.Accuracy
import WholeBody.Proofs.Linear.PosDef
import WholeBody.Proofs.Robot.Energy
import WholeBody.Proofs.Contact.Orthonormal
import WholeBody.Proofs.Contact.Ratio
import WholeBody.Proofs.Program.Stiffening
import WholeBody.Proofs.Tracking.FeedbackLaw
import WholeBody.Proofs.Config.PhaseText
import WholeBody.Proofs.Linear.Compressed
import WholeBody.Proofs.Tracking.Gains
import WholeBody.Proofs.Scalar.Machine
import WholeBody.Proofs.Config.Acceptance
import WholeBody.Proofs.Program.Partition
