import OpenBeach.Metadata
import OpenBeach.Displays
import OpenBeach.CollectionRuns
import OpenBeach.SearchResults
import OpenBeach.UnicodeSearch
import OpenBeach.Consent
import OpenBeach.Ledger
import OpenBeach.Logs
import OpenBeach.Receipts
import OpenBeach.CollectionAnswers
import OpenBeach.Site
