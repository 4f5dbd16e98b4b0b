import Sendplane.Api.Authenticity
import Sendplane.Api.Deliveries
import Sendplane.Api.IpLimiter
import Sendplane.Api.Links
import Sendplane.Api.Naming
import Sendplane.Api.SigningKeys
import Sendplane.Bounce.Forgery
import Sendplane.Bounce.Redelivery
import Sendplane.Console.Blocks
import Sendplane.Control.Firsts
import Sendplane.Control.Leader
import Sendplane.Control.Transitions
import Sendplane.Ingest.Concurrent
import Sendplane.Ingest.Lines
import Sendplane.Mailbox.Fetching
import Sendplane.Mbhealth.Watch
import Sendplane.Memstore.Timestamps
import Sendplane.Mongo.Claim
import Sendplane.Overlay.Content
import Sendplane.Overlay.Sequential
import Sendplane.Overlay.Settings
import Sendplane.Postgres.Parameters
import Sendplane.Probe.Find
import Sendplane.Probe.Finished
import Sendplane.Probe.Sigv1
import Sendplane.Probe.Summary
import Sendplane.Render.Anchors
import Sendplane.Render.Memory
import Sendplane.Render.Preparing
import Sendplane.Render.Translation
import Sendplane.Sender.Circuit
import Sendplane.Sender.Injection
import Sendplane.Sender.Lanes
import Sendplane.Sender.Penalties
import Sendplane.Sender.Pool.Closing
import Sendplane.Sender.Recovery
import Sendplane.Sender.Retries
import Sendplane.Store.Truncation
