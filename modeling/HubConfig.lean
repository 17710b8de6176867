import HubConfig.Adoption
import HubConfig.Client
import HubConfig.SettingsEnvironment
import HubConfig.Proofs.Exchange
import HubConfig.Proofs.Stability
import HubConfig.Proofs.Secrecy
import HubConfig.Proofs.Members
import HubConfig.Proofs.Listing
import HubConfig.Proofs.Destination
import HubConfig.Proofs.Leniency
import HubConfig.Proofs.ClientCreation
import HubConfig.Proofs.DotSegments
import HubConfig.Proofs.Disclosure
import HubConfig.Proofs.ReportedPriority
import HubConfig.Proofs.ByPosition
import HubConfig.Proofs.SigningKey
