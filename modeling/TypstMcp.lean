import TypstMcp.Auth.Dropped
import TypstMcp.Auth.Keys
import TypstMcp.Auth.Lookup
import TypstMcp.Auth.Principal
import TypstMcp.Auth.Scope
import TypstMcp.Auth.Token
import TypstMcp.Bundle.Files
import TypstMcp.Bundle.Location
import TypstMcp.Config.Arithmetic
import TypstMcp.Config.Source
import TypstMcp.Http.ApiError
import TypstMcp.Http.ApiKeys
import TypstMcp.Http.Assets
import TypstMcp.Http.Doors
import TypstMcp.Http.Download
import TypstMcp.Http.ErrorContract
import TypstMcp.Http.Links
import TypstMcp.Mcp.Session
import TypstMcp.Metrics.Scrape
import TypstMcp.Metrics.Tally
import TypstMcp.OAuth.Binding
import TypstMcp.OAuth.Forwarding
import TypstMcp.OAuth.Onboarding
import TypstMcp.OAuth.Proxy
import TypstMcp.OAuth.Secret
import TypstMcp.Render.Assets
import TypstMcp.Render.Catalog
import TypstMcp.Render.Compiled
import TypstMcp.Render.Delivery
import TypstMcp.Render.Isolation
import TypstMcp.Render.Link
import TypstMcp.Render.Previews
import TypstMcp.Render.Result
import TypstMcp.Render.Service
import TypstMcp.Render.SourceMap
import TypstMcp.Store.Accounts
import TypstMcp.Store.Atomic
import TypstMcp.Store.Coherence
import TypstMcp.Store.Concurrent
import TypstMcp.Store.Crashes
import TypstMcp.Store.Eviction
import TypstMcp.Store.Faults
import TypstMcp.Store.History
import TypstMcp.Store.Index
import TypstMcp.Store.Keeping
import TypstMcp.Store.Layout
import TypstMcp.Store.Ledger
import TypstMcp.Store.Listing
import TypstMcp.Store.Lives
import TypstMcp.Store.Opening
import TypstMcp.Store.Paths
import TypstMcp.Store.Program
import TypstMcp.Store.Publishing
import TypstMcp.Store.Races
import TypstMcp.Store.ReadBack
import TypstMcp.Store.Rebuild
import TypstMcp.Store.Reopen
import TypstMcp.Store.Sequential
import TypstMcp.Store.Serde
import TypstMcp.Store.Tenants
import TypstMcp.Store.Upkeep
import TypstMcp.Store.Volume
import TypstMcp.Store.Working
import TypstMcp.Store.World
import TypstMcp.Store.Writing
import TypstMcp.Template.Archive
import TypstMcp.Template.Assemble
import TypstMcp.Template.Bare
import TypstMcp.Template.Data
import TypstMcp.Template.Dates
import TypstMcp.Template.Decoding
import TypstMcp.Template.Inert
import TypstMcp.Template.Manifest
import TypstMcp.Template.Message
import TypstMcp.Template.Overrides
import TypstMcp.Template.Promotion
import TypstMcp.Template.Reload
import TypstMcp.Template.Source
import TypstMcp.Template.TemplateSet
import TypstMcp.Template.TypstReader
import TypstMcp.Template.TypstValue
import TypstMcp.Template.Volume
import TypstMcp.Theory.Base64
import TypstMcp.Theory.Calendar
import TypstMcp.Theory.Duplex
import TypstMcp.Theory.Exposition
import TypstMcp.Theory.FormUrl
import TypstMcp.Theory.Frame
import TypstMcp.Theory.Play
import TypstMcp.Theory.Prog
import TypstMcp.Theory.Semaphore
import TypstMcp.Theory.Separator
import TypstMcp.Theory.Unwinding
import TypstMcp.Worker.Compile
import TypstMcp.Worker.Outputs
import TypstMcp.Worker.Permits
import TypstMcp.Worker.Pipe
import TypstMcp.Worker.Prompt
import TypstMcp.Worker.Protocol
import TypstMcp.Worker.Run
import TypstMcp.Worker.Staging
import TypstMcp.Worker.Today
