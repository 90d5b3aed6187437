import GuildPlan.Fixture.EntryScript
import GuildPlan.Fixture.Record
import GuildPlan.Fixture.TableText
import GuildPlan.Main
import GuildPlan.Proofs.Builders
import GuildPlan.Proofs.Delivery
import GuildPlan.Proofs.Entries
import GuildPlan.Proofs.FixedPoint
import GuildPlan.Proofs.Grammar
import GuildPlan.Proofs.Independence
import GuildPlan.Proofs.Interruption
import GuildPlan.Proofs.Markers
import GuildPlan.Proofs.Meaning
import GuildPlan.Proofs.Nesting
import GuildPlan.Proofs.Rearrangement
import GuildPlan.Proofs.Refusals
import GuildPlan.Proofs.Resets
import GuildPlan.Proofs.Returning
import GuildPlan.Proofs.Revalidation
import GuildPlan.Proofs.Scanning
import GuildPlan.Proofs.Uniqueness
import GuildPlan.Proofs.Interrogation
import GuildPlan.Proofs.Bytes
import GuildPlan.Proofs.Overwrites
import GuildPlan.Proofs.Places
import GuildPlan.Proofs.Clashes
import GuildPlan.Proofs.Colors
import GuildPlan.Proofs.Identity
import GuildPlan.Proofs.Modules
import GuildPlan.Proofs.Emptiness
import GuildPlan.Proofs.Agreement
import GuildPlan.Proofs.Enumeration
import GuildPlan.Proofs.Providing
import GuildPlan.Proofs.Collection
