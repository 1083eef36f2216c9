import SpectonCr.Signing.TrustedSigners
import SpectonCr.Auth.Usability
import SpectonCr.Auth.Robots
import SpectonCr.Auth.Tenants
import SpectonCr.Auth.Revocation
import SpectonCr.Registry.AuditedWrites
import SpectonCr.Registry.PushRace
import SpectonCr.Admission.SignatureGate
import SpectonCr.Audit.ExportCoverage
import SpectonCr.Gc.LiveReconcile
import SpectonCr.Registry.PromoteAtomic
import SpectonCr.Resilience.CircuitBreaker
import SpectonCr.Mirror.Linked
import SpectonCr.Replication.SemiSync
import SpectonCr.Audit.Queries
import SpectonCr.VulnDb.OsvFeed
import SpectonCr.VulnDb.Cursors
import SpectonCr.Auth.ManualGrants
import SpectonCr.Auth.LoginGroups
import SpectonCr.Auth.PrivateProjects
import SpectonCr.Cost.Rollup
import SpectonCr.Rebuild.RateCap
import SpectonCr.Import.Runner
import SpectonCr.Operator.Backups
import SpectonCr.Matcher.Deb
import SpectonCr.Matcher.RpmOrder
import SpectonCr.Scanner.Dockerfile
import SpectonCr.Scanner.GoBinary
import SpectonCr.Scanner.LayerCache
import SpectonCr.Scanner.Requirements
import SpectonCr.Audit.ExportCheck
import SpectonCr.Ephemeral.Durations
import SpectonCr.Auth.Der
import SpectonCr.Pilot.Chat
import SpectonCr.Rebuild.Patterns
