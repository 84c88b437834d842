import ActorPlacement.Config.Document
import ActorPlacement.Json.Values
import ActorPlacement.Main
import ActorPlacement.NameMap.Lemmas
import ActorPlacement.Proofs.Bundle.Amounts
import ActorPlacement.Proofs.Bundle.InTurn
import ActorPlacement.Proofs.Cluster.Arrangement
import ActorPlacement.Proofs.Cluster.Finality
import ActorPlacement.Proofs.Cluster.Precedence
import ActorPlacement.Proofs.Cluster.Refusals
import ActorPlacement.Proofs.Config.Validation
import ActorPlacement.Proofs.Overrides.Groups
import ActorPlacement.Proofs.Planning.Agreement
import ActorPlacement.Proofs.Planning.Spreading
import ActorPlacement.Proofs.Protocol.Attempts
import ActorPlacement.Proofs.Protocol.Construction
import ActorPlacement.Proofs.Protocol.DryRun
import ActorPlacement.Proofs.Protocol.Ownership
import ActorPlacement.Proofs.Protocol.Resolution
import ActorPlacement.Proofs.Spec.Coverage
import ActorPlacement.Proofs.Spec.Hosting
import ActorPlacement.Quantity.Rational
import ActorPlacement.Simulation.Session
import ActorPlacement.Proofs.Cluster.Restoration
import ActorPlacement.Proofs.Quantity.Order
import ActorPlacement.Proofs.Scoring.Ranking
import ActorPlacement.Proofs.Scoring.Means
import ActorPlacement.Proofs.Scoring.Preference
import ActorPlacement.Proofs.Scoring.Range
import ActorPlacement.Proofs.Options.Contents
import ActorPlacement.Text.Octets
import ActorPlacement.Proofs.Protocol.ValidOptions
import ActorPlacement.Proofs.Overrides.RoundTrip
import ActorPlacement.Proofs.Config.Agreement
import ActorPlacement.Proofs.Overrides.Merging
import ActorPlacement.Proofs.Duration.Grammar
import ActorPlacement.Proofs.Overrides.Assignments
import ActorPlacement.Proofs.Config.RoundTrip
