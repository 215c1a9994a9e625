import FlowDiagram.Client.Wire
import FlowDiagram.Connector.Exchange
import FlowDiagram.Connector.Wire
import FlowDiagram.Json.Writer
import FlowDiagram.Lineup
import FlowDiagram.Palette.Library
import FlowDiagram.Palette.Offer
import FlowDiagram.Proofs.Client.Delivery
import FlowDiagram.Proofs.Connector.History
import FlowDiagram.Proofs.Connector.Loading
import FlowDiagram.Proofs.Lineup.Call
import FlowDiagram.Proofs.Lineup.Consistent
import FlowDiagram.Proofs.Lineup.Duplicate
import FlowDiagram.Proofs.Lineup.Reference
import FlowDiagram.Proofs.Lineup.Run
import FlowDiagram.Proofs.Palette.Account
import FlowDiagram.Proofs.Palette.Draft
import FlowDiagram.Proofs.Palette.Stop
import FlowDiagram.Proofs.Palette.Transparency
import FlowDiagram.Proofs.Request.DeclarationSite
import FlowDiagram.Proofs.Request.Position
import FlowDiagram.Proofs.Request.ScopeGroups
import FlowDiagram.Proofs.Text.Boundary
import FlowDiagram.Proofs.Text.LineTable
import FlowDiagram.Proofs.Text.Order
import FlowDiagram.Proofs.Tree.Cover
import FlowDiagram.Proofs.Tree.Enclosure
import FlowDiagram.Proofs.Tree.Mark
import FlowDiagram.Proofs.Tree.OpenNode
import FlowDiagram.Proofs.Tree.Replay
import FlowDiagram.Proofs.Wire.RoundTrip
