import Rollout.Batch
import Rollout.Channel
import Rollout.Config
import Rollout.Config.Reader
import Rollout.Config.Writer
import Rollout.Env
import Rollout.Found
import Rollout.Lifecycle
import Rollout.Log
import Rollout.MsgPack.Error
import Rollout.MsgPack.Marker
import Rollout.MsgPack.Reader
import Rollout.MsgPack.Record
import Rollout.MsgPack.Value
import Rollout.Numeric.Binary
import Rollout.Numeric.Read
import Rollout.Numeric.Shortest
import Rollout.Numeric.Text
import Rollout.Proofs.BatchCalls
import Rollout.Proofs.ChannelOrder
import Rollout.Proofs.ClaimedMemory
import Rollout.Proofs.ClosedTables
import Rollout.Proofs.ContentForms
import Rollout.Proofs.CurrentEnvironment
import Rollout.Proofs.CutRequests
import Rollout.Proofs.Dependable
import Rollout.Proofs.DiscountedReturns
import Rollout.Proofs.EnvironmentCalls
import Rollout.Proofs.FailedCalls
import Rollout.Proofs.FaithfulResponses
import Rollout.Proofs.FloatOrder
import Rollout.Proofs.ForgottenPast
import Rollout.Proofs.HeadForms
import Rollout.Proofs.Highlights
import Rollout.Proofs.IdleRequests
import Rollout.Proofs.ImpossibleOutcomes
import Rollout.Proofs.IntegerActions
import Rollout.Proofs.IntegerWords
import Rollout.Proofs.Interruption
import Rollout.Proofs.LakeConstruction
import Rollout.Proofs.LakeEpisodes
import Rollout.Proofs.LakeFrames
import Rollout.Proofs.LakeMaps
import Rollout.Proofs.LakeTables
import Rollout.Proofs.Lakes
import Rollout.Proofs.Lockstep
import Rollout.Proofs.NestedValues
import Rollout.Proofs.PartialEffects
import Rollout.Proofs.Pictures
import Rollout.Proofs.PooledMoments
import Rollout.Proofs.PredictedSteps
import Rollout.Proofs.RecordForms
import Rollout.Proofs.RecordRoundTrip
import Rollout.Proofs.RectangularLists
import Rollout.Proofs.ReplyKeys
import Rollout.Proofs.RequestForms
import Rollout.Proofs.RequestRoundTrip
import Rollout.Proofs.Reseeding
import Rollout.Proofs.RewardScaling
import Rollout.Proofs.Runs
import Rollout.Proofs.ServerCalls
import Rollout.Proofs.ServingFold
import Rollout.Proofs.SessionCalls
import Rollout.Proofs.SessionRuns
import Rollout.Proofs.Stacking
import Rollout.Proofs.StandardWorlds
import Rollout.Proofs.SteadyReading
import Rollout.Proofs.Sweep
import Rollout.Proofs.TableEntries
import Rollout.Proofs.TableHistories
import Rollout.Proofs.TableUpdates
import Rollout.Proofs.TabularSteps
import Rollout.Proofs.TensorValues
import Rollout.Proofs.TimeLimits
import Rollout.Proofs.TruthfulInfo
import Rollout.Proofs.Utf8RoundTrip
import Rollout.Proofs.ValueForms
import Rollout.Proofs.ValueRoundTrip
import Rollout.Random
import Rollout.Registry
import Rollout.Rejection
import Rollout.Scaler
import Rollout.Server
import Rollout.Serving
import Rollout.Session
import Rollout.Space
import Rollout.Tensor.Basic
import Rollout.Tensor.Inspect
import Rollout.Tensor.Nested
import Rollout.Text.Quoted
import Rollout.Text.Utf8
import Rollout.TransitionTable
import Rollout.Wire.Method
import Rollout.Wire.Nested
import Rollout.Wire.Request
import Rollout.Wire.Response
import Rollout.World.CartPole
import Rollout.World.FrozenLake
import Rollout.World.Grid
import Rollout.World.Pendulum
import Rollout.World.Standard
import Rollout.World.Tabular
import Rollout.Yaml.BlockText
import Rollout.Yaml.Cursor
import Rollout.Yaml.Fault
import Rollout.Yaml.FlowText
import Rollout.Yaml.Node
import Rollout.Yaml.Property
import Rollout.Yaml.Scalar
import Rollout.Yaml.Token
