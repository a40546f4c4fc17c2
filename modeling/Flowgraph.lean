import Flowgraph.Diagnostics
import Flowgraph.Kernel
import Flowgraph.Main
import Flowgraph.Proofs.Block.Redesign
import Flowgraph.Proofs.Catalog.Checks
import Flowgraph.Proofs.Engine.Ancestry
import Flowgraph.Proofs.Engine.BufferSize
import Flowgraph.Proofs.Engine.Failure
import Flowgraph.Proofs.Engine.SignalTypes
import Flowgraph.Proofs.Engine.Transcript
import Flowgraph.Proofs.Graph.Sides
import Flowgraph.Proofs.Catalog.Registration
import Flowgraph.Proofs.Number.Infinite
import Flowgraph.Proofs.Value.Misfit
import Flowgraph.Proofs.Block.Tripping
import Flowgraph.Proofs.Catalog.Tripping
import Flowgraph.Proofs.CommandLine.Crashing
import Flowgraph.Proofs.Configuration.RoundTrip
import Flowgraph.Proofs.Graph.Failures
import Flowgraph.Proofs.Graph.Loops
import Flowgraph.Proofs.Graph.Queueing
import Flowgraph.Proofs.Application.Joining
import Flowgraph.Proofs.Application.Repeating
import Flowgraph.Proofs.Audio.Playback
import Flowgraph.Proofs.Block.Playing
import Flowgraph.Proofs.Number.Real
import Flowgraph.Proofs.Phase.Wrapping
import Flowgraph.Proofs.Block.Phased
import Flowgraph.Proofs.Block.Detecting
import Flowgraph.Proofs.Block.Tracking
import Flowgraph.Proofs.Block.Integrating
import Flowgraph.Proofs.Block.Steady
import Flowgraph.Proofs.Spectrum.Framing
import Flowgraph.Proofs.Application.Coherence
import Flowgraph.Proofs.Configuration.Accepting
import Flowgraph.Proofs.Audio.Levels
import Flowgraph.Proofs.Audio.Writing
import Flowgraph.Proofs.Application.Rendering
import Flowgraph.Proofs.CommandLine.Exits
import Flowgraph.Proofs.Engine.Driving
import Flowgraph.Proofs.Catalog.Grouping
import Flowgraph.Proofs.Catalog.Resolution
import Flowgraph.Proofs.Block.Analytic
import Flowgraph.Proofs.Filter.Remembering
import Flowgraph.Proofs.Filter.Causality
import Flowgraph.Proofs.Spectrum.Sizing
