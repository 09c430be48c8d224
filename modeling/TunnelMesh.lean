import TunnelMesh.Main
import TunnelMesh.Proofs.Mesh.Addresses
import TunnelMesh.Proofs.Mesh.Changes
import TunnelMesh.Proofs.Mesh.Failures
import TunnelMesh.Proofs.Mesh.Files
import TunnelMesh.Proofs.Mesh.Peers
import TunnelMesh.Proofs.Mesh.Rekeying
import TunnelMesh.Proofs.Mesh.Stability
import TunnelMesh.Proofs.Topology.Document
import TunnelMesh.Proofs.Mesh.Confidentiality
import TunnelMesh.Proofs.Mesh.Drawing
import TunnelMesh.Proofs.Mesh.Randomness
import TunnelMesh.Proofs.Mesh.Growth
import TunnelMesh.Proofs.Command.FileTree
import TunnelMesh.Proofs.Mesh.Recompile
import TunnelMesh.Proofs.Command.Generate
import TunnelMesh.Proofs.Command.SavedTopology
import TunnelMesh.Proofs.Command.Path
import TunnelMesh.Proofs.Command.Views
import TunnelMesh.Proofs.Command.Writing
import TunnelMesh.Proofs.Json.Members
import TunnelMesh.Proofs.Json.Rewriting
import TunnelMesh.Proofs.Topology.Rewriting
import TunnelMesh.Proofs.Config.Shown
import TunnelMesh.Proofs.Pairing
import TunnelMesh.Proofs.Mesh.SubnetForms
import TunnelMesh.Proofs.Net.Claims
import TunnelMesh.Proofs.Net.Range
import TunnelMesh.Proofs.Mesh.Routes
import TunnelMesh.Proofs.Mesh.SplitGroups
import TunnelMesh.Proofs.Net.HostText
