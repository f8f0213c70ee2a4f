import DnsZones.Main
import DnsZones.Plugin.Recorder
import DnsZones.Proofs.Atomicity
import DnsZones.Proofs.Builtin.Authority
import DnsZones.Proofs.Builtin.Idempotence
import DnsZones.Proofs.Builtin.Lines
import DnsZones.Proofs.Builtin.References
import DnsZones.Proofs.Builtin.Reverse
import DnsZones.Proofs.Channel.Lost
import DnsZones.Proofs.Independence
import DnsZones.Proofs.Layout.Alignment
import DnsZones.Proofs.Mailbox.Ambiguity
import DnsZones.Proofs.Message
import DnsZones.Proofs.Name.Grammar
import DnsZones.Proofs.Numbering
import DnsZones.Proofs.Placement
import DnsZones.Proofs.Precedence
import DnsZones.Proofs.Protocol
import DnsZones.Proofs.Registry.History
import DnsZones.Proofs.Registry.Loading
import DnsZones.Proofs.Reports
import DnsZones.Proofs.Serial.Footprint
import DnsZones.Proofs.Serial.Order
import DnsZones.Proofs.Soundness
import DnsZones.Proofs.Staging
